import Vumi2.Lib.Codecs
import Vumi2.Lib.Numerals

/-!
# XML documents

How Python's `xml.etree.ElementTree` writes an element (`Element.serialize`, `tostring`), and how a
document is read (`reader`): start tags, texts and end tags, with the references resolved and the
line ends normalised.

What was written is read as the element, but for the line ends of its texts, if its texts and its
attributes have only characters that a document may have. `ElementTree` does not check this: a text
with any other character is written all the same, and what was written cannot be read
(`read_tostring`).
-/

namespace Xml

open Text

/-- A character that a document may have. -/
def isXmlChar (c : CodePoint) : Bool :=
  c.val = 0x9 || c.val = 0xA || c.val = 0xD || 0x20 ≤ c.val && c.val ≤ 0xD7FF ||
    0xE000 ≤ c.val && c.val ≤ 0xFFFD || 0x10000 ≤ c.val

/-! ## Writing -/

/-- `xml.etree.ElementTree.Element`, without a tail. -/
inductive Element where
  | mk (tag : Str) (attrib : List (Str × Str)) (text : Str) (children : List Element)

/-- `text.replace(old, new)`, for one character. -/
def replaceChar (old : Char) (new : String) (text : Str) : Str :=
  text.flatMap fun c => if c = ofChar old then str new else [c]

/-- `_escape_cdata`. -/
def escapeCdata (text : Str) : Str :=
  replaceChar '>' "&gt;" (replaceChar '<' "&lt;" (replaceChar '&' "&amp;" text))

/-- `_escape_attrib`. -/
def escapeAttrib (text : Str) : Str :=
  replaceChar '\t' "&#09;" (replaceChar '\n' "&#10;" (replaceChar '\r' "&#13;"
    (replaceChar '"' "&quot;" (escapeCdata text))))

/-- An attribute of a start tag. -/
def serializeAttr (attr : Str × Str) : Str :=
  str " " ++ attr.1 ++ str "=\"" ++ escapeAttrib attr.2 ++ str "\""

mutual

/-- `_serialize_xml`. -/
def Element.serialize : Element → Str
  | .mk tag attrib text children =>
    str "<" ++ tag ++ attrib.flatMap serializeAttr ++
      if text.isEmpty && children.isEmpty then str " />"
      else str ">" ++ escapeCdata text ++ serializeAll children ++ str "</" ++ tag ++ str ">"

/-- The texts of the children, one after the other. -/
def serializeAll : List Element → Str
  | [] => []
  | e :: es => e.serialize ++ serializeAll es

end

/-- `xmlcharrefreplace` for a character that has no encoding. -/
def charRef (c : CodePoint) : Str := str "&#" ++ decimal c.val ++ str ";"

/-- A character as it is written to a stream in UTF-8. -/
def writeChar (c : CodePoint) : Bytes := (Codecs.utf8Enc c).getD ((charRef c).map toByte)

/-- `tostring(element, encoding="utf-8")`. -/
def tostring (e : Element) : Bytes := e.serialize.flatMap writeChar

/-! ## Reading -/

/-- Line ends become line feeds; `cr` is whether a carriage return came before. -/
def lineEnds (cr : Bool) : Str → Str
  | [] => []
  | c :: s =>
    if c = ofChar '\r' then ofChar '\n' :: lineEnds true s
    else if c = ofChar '\n' ∧ cr = true then lineEnds false s
    else c :: lineEnds false s

/-- The character of a reference. -/
def reference (name : Str) : Option CodePoint :=
  if name = str "amp" then some (ofChar '&')
  else if name = str "lt" then some (ofChar '<')
  else if name = str "gt" then some (ofChar '>')
  else if name = str "quot" then some (ofChar '"')
  else if name = str "apos" then some (ofChar '\'')
  else if name.take 1 = str "#" ∧ name.drop 1 ≠ [] ∧ (name.drop 1).all isDigit = true then
    (Codecs.codePoint? (natOf (name.drop 1))).bind fun c =>
      if isXmlChar c = true then some c else none
  else none

/-- References are resolved; the state is the name of the reference that is being read. -/
def references : Decoder (Option Str) CodePoint CodePoint where
  init := none
  step
    | none, c =>
      if c = ofChar '&' then some (some [], [])
      else if isXmlChar c = true then some (none, [c]) else none
    | some name, c =>
      if c = ofChar ';' then (reference name).map fun c => (none, [c])
      else some (some (name ++ [c]), [])
  done name := name.isNone

/-- The text that stands between tags. -/
def readText (raw : Str) : Option Str := references.decode (lineEnds false raw)

/-- The value of an attribute, in which a space stands for white space. -/
def readAttr (raw : Str) : Option Str :=
  references.decode ((lineEnds false raw).map fun c =>
    if c = ofChar '\n' ∨ c = ofChar '\t' then ofChar ' ' else c)

/-- A character of a name; those outside ASCII are left out. -/
def isNameChar (c : CodePoint) : Bool :=
  0x30 ≤ c.val && c.val ≤ 0x39 || 0x41 ≤ c.val && c.val ≤ 0x5A || 0x61 ≤ c.val && c.val ≤ 0x7A ||
    c = ofChar '-' || c = ofChar '.' || c = ofChar '_' || c = ofChar ':'

/-- What a reader of a document comes upon. -/
inductive Event where
  | start (tag : Str) (attrib : List (Str × Str))
  | text (s : Str)
  | close (tag : Str)
deriving DecidableEq, Repr

/-- Where the reader stands. -/
inductive State where
  | content (raw : Str)
  /-- After `<`. -/
  | markup
  | closeTag (tag : Str)
  | startTag (tag : Str)
  /-- Between attributes. -/
  | attrs (tag : Str) (attrib : List (Str × Str))
  | attrName (tag : Str) (attrib : List (Str × Str)) (name : Str)
  /-- After `=`. -/
  | equals (tag : Str) (attrib : List (Str × Str)) (name : Str)
  | attrValue (tag : Str) (attrib : List (Str × Str)) (name raw : Str)
  /-- After the value of an attribute. -/
  | afterValue (tag : Str) (attrib : List (Str × Str))
  /-- After `/`. -/
  | empty (tag : Str) (attrib : List (Str × Str))
deriving DecidableEq, Repr

/-- The text before a tag. -/
def flush (raw : Str) : Option (List Event) :=
  if raw = [] then some [] else (readText raw).map fun s => [.text s]

/-- After a name or a value in a start tag. -/
def inTag (tag : Str) (attrib : List (Str × Str)) (c : CodePoint) : Option (State × List Event) :=
  if c = ofChar ' ' then some (.attrs tag attrib, [])
  else if c = ofChar '>' then some (.content [], [.start tag attrib])
  else if c = ofChar '/' then some (.empty tag attrib, [])
  else none

/-- The reader of a document. -/
def reader : Decoder State CodePoint Event where
  init := .content []
  step
    | .content raw, c =>
      if c = ofChar '<' then (flush raw).map fun out => (.markup, out)
      else some (.content (raw ++ [c]), [])
    | .markup, c =>
      if c = ofChar '/' then some (.closeTag [], [])
      else if isNameChar c = true then some (.startTag [c], []) else none
    | .closeTag tag, c =>
      if c = ofChar '>' then some (.content [], [.close tag])
      else if isNameChar c = true then some (.closeTag (tag ++ [c]), []) else none
    | .startTag tag, c =>
      if isNameChar c = true then some (.startTag (tag ++ [c]), []) else inTag tag [] c
    | .attrs tag attrib, c =>
      if isNameChar c = true then some (.attrName tag attrib [c], []) else inTag tag attrib c
    | .attrName tag attrib name, c =>
      if c = ofChar '=' then some (.equals tag attrib name, [])
      else if isNameChar c = true then some (.attrName tag attrib (name ++ [c]), []) else none
    | .equals tag attrib name, c =>
      if c = ofChar '"' then some (.attrValue tag attrib name [], []) else none
    | .attrValue tag attrib name raw, c =>
      if c = ofChar '"' then
        (readAttr raw).map fun value => (.afterValue tag (attrib ++ [(name, value)]), [])
      else if c = ofChar '<' then none
      else some (.attrValue tag attrib name (raw ++ [c]), [])
    | .afterValue tag attrib, c => inTag tag attrib c
    | .empty tag attrib, c =>
      if c = ofChar '>' then some (.content [], [.start tag attrib, .close tag]) else none
  done q := q = .content []

/-- What an element should be read as. -/
def textEvents (text : Str) : List Event := if text = [] then [] else [.text (lineEnds false text)]

mutual

/-- The events of an element: its start, its text, those of its children and its end. -/
def Element.events : Element → List Event
  | .mk tag attrib text children =>
    .start tag attrib :: (textEvents text ++ eventsAll children ++ [.close tag])

/-- The events of the children, one after the other. -/
def eventsAll : List Element → List Event
  | [] => []
  | e :: es => e.events ++ eventsAll es

end

/-! ## Characters -/

/-- Replacing a character works on a text character by character. -/
theorem replaceChar_flatMap (old : Char) (new : String) (word : CodePoint → Str) (s : Str) :
    replaceChar old new (s.flatMap word) = s.flatMap fun c => replaceChar old new (word c) :=
  List.flatMap_assoc

/-- Characters are escaped one by one. -/
theorem escapeCdata_flatMap (s : Str) : escapeCdata s = s.flatMap fun c => escapeCdata [c] := by
  have hs : s = s.flatMap fun c => [c] := (List.flatMap_singleton' s).symm
  conv_lhs => rw [hs]
  unfold escapeCdata
  rw [replaceChar_flatMap, replaceChar_flatMap, replaceChar_flatMap]

/-- So an attribute is escaped character by character. -/
theorem escapeAttrib_flatMap (s : Str) : escapeAttrib s = s.flatMap fun c => escapeAttrib [c] := by
  unfold escapeAttrib
  rw [escapeCdata_flatMap, replaceChar_flatMap, replaceChar_flatMap, replaceChar_flatMap,
    replaceChar_flatMap]

/-- How a character of a text is written. -/
theorem escapeCdata_cases (c : CodePoint) :
    (c = ofChar '&' ∨ c = ofChar '<' ∨ c = ofChar '>') ∨
      c ≠ ofChar '&' ∧ c ≠ ofChar '<' ∧ escapeCdata [c] = [c] := by
  by_cases hamp : c = ofChar '&'
  · exact .inl (.inl hamp)
  · by_cases hlt : c = ofChar '<'
    · exact .inl (.inr (.inl hlt))
    · by_cases hgt : c = ofChar '>'
      · exact .inl (.inr (.inr hgt))
      · exact .inr ⟨hamp, hlt, by simp [escapeCdata, replaceChar, hamp, hlt, hgt]⟩

/-- How a character of an attribute is written. -/
theorem escapeAttrib_cases (c : CodePoint) :
    (c = ofChar '&' ∨ c = ofChar '<' ∨ c = ofChar '>' ∨ c = ofChar '"' ∨ c = ofChar '\r' ∨
      c = ofChar '\n' ∨ c = ofChar '\t') ∨
      c ≠ ofChar '&' ∧ c ≠ ofChar '<' ∧ c ≠ ofChar '"' ∧ c ≠ ofChar '\r' ∧ c ≠ ofChar '\n' ∧
        c ≠ ofChar '\t' ∧ escapeAttrib [c] = [c] := by
  by_cases hspecial : c = ofChar '&' ∨ c = ofChar '<' ∨ c = ofChar '>' ∨ c = ofChar '"' ∨
      c = ofChar '\r' ∨ c = ofChar '\n' ∨ c = ofChar '\t'
  · exact .inl hspecial
  · simp only [not_or] at hspecial
    obtain ⟨hamp, hlt, hgt, hquot, hcr, hlf, htab⟩ := hspecial
    refine .inr ⟨hamp, hlt, hquot, hcr, hlf, htab, ?_⟩
    simp [escapeAttrib, escapeCdata, replaceChar, hamp, hlt, hgt, hquot, hcr, hlf, htab]

/-- A character as it stands in the document that is written. -/
def shown (c : CodePoint) : Str := if (Codecs.utf8Enc c).isSome = true then [c] else charRef c

/-- Only a lone surrogate has no encoding. -/
theorem surrogate_of_utf8Enc {c : CodePoint} (h : Codecs.utf8Enc c = none) :
    0xD800 ≤ c.val ∧ c.val < 0xE000 := by
  unfold Codecs.utf8Enc at h
  dsimp only at h
  split_ifs at h with h1 h2 h3 h4
  exact h3

/-- A character is written as it is, or, if no document may have it, as a reference. -/
theorem shown_cases (c : CodePoint) :
    shown c = [c] ∨ shown c = charRef c ∧ isXmlChar c = false := by
  cases henc : Codecs.utf8Enc c with
  | some bs => exact .inl (if_pos (by rw [henc]; rfl))
  | none =>
    have hsurrogate := surrogate_of_utf8Enc henc
    refine .inr ⟨if_neg (by rw [henc]; decide), ?_⟩
    simp only [isXmlChar, Bool.or_eq_false_iff, Bool.and_eq_false_iff, decide_eq_false_iff_not]
    omega

/-- What a character reference is made of. -/
theorem mem_charRef {c d : CodePoint} (h : d ∈ charRef c) :
    d = ofChar '&' ∨ d = ofChar '#' ∨ d = ofChar ';' ∨ isDigit d = true := by
  rcases List.mem_append.1 h with h | h
  · rcases List.mem_append.1 h with h | h
    · have hstr : str "&#" = [ofChar '&', ofChar '#'] := by decide
      rw [hstr, List.mem_pair] at h
      exact h.elim .inl fun h => .inr (.inl h)
    · exact .inr (.inr (.inr (isDigit_of_mem_decimal h)))
  · exact .inr (.inr (.inl (List.mem_singleton.1 h)))

/-- What is written of a character is read as it stands there. -/
theorem feed_writeChar (c : CodePoint) :
    Codecs.utf8.feed none (writeChar c) = some (none, shown c) := by
  cases henc : Codecs.utf8Enc c with
  | some bs =>
    rw [writeChar, shown, henc]
    exact Codecs.feed_utf8Enc henc
  | none =>
    -- A surrogate has no octets; its number is written, in ASCII.
    have hlt : ∀ d ∈ charRef c, d.val < 0x80 := by
      intro d hd
      rcases mem_charRef hd with rfl | rfl | rfl | hdigit
      · decide
      · decide
      · decide
      · simp only [isDigit, Bool.and_eq_true, decide_eq_true_eq] at hdigit
        omega
    have hbytes : ∀ b ∈ (charRef c).map toByte, b.toNat < 0x80 := by
      intro b hb
      obtain ⟨d, hd, rfl⟩ := List.mem_map.1 hb
      have hval := hlt d hd
      rw [toNat_toByte (by omega)]
      exact hval
    have hback : ((charRef c).map toByte).map ofByte = charRef c := by
      rw [List.map_map]
      refine (List.map_congr_left fun d hd => ?_).trans (List.map_id _)
      have hval := hlt d hd
      exact ofByte_toByte (by omega)
    rw [writeChar, shown, henc]
    exact (Codecs.feed_utf8_ascii hbytes).trans (by rw [hback]; rfl)

/-! ## References -/

/-- The name of a reference is taken in up to its semicolon. -/
theorem feed_name {name : Str} (h : ∀ c ∈ name, c ≠ ofChar ';') (before : Str) :
    references.feed (some before) name = some (some (before ++ name), []) := by
  induction name generalizing before with
  | nil => rw [List.append_nil]; rfl
  | cons c name ih =>
    obtain ⟨hc, hname⟩ := List.forall_mem_cons.1 h
    have hstep : references.step (some before) c = some (some (before ++ [c]), []) := by
      simp only [references, hc, if_false]
    have hfeed := Decoder.feed_cons hstep (ih hname (before ++ [c]))
    rwa [List.append_assoc] at hfeed

/-- A reference to a character that a document may not have is refused. -/
theorem feed_charRef {c : CodePoint} (h : isXmlChar c = false) :
    references.feed none (charRef c) = none := by
  have hopen : references.feed none (str "&#") = some (some (str "#"), []) := by decide
  -- The name of the reference ends at the semicolon, which is no digit.
  have hname : ∀ d ∈ decimal c.val, d ≠ ofChar ';' := by
    rintro d hd rfl
    exact absurd (isDigit_of_mem_decimal hd) (by decide)
  -- It is no named entity, so its digits are read, and the character is refused.
  have hnumber : reference (str "#" ++ decimal c.val) = none := by
    have hhash : str "#" = [ofChar '#'] := rfl
    have hdrop : (ofChar '#' :: decimal c.val).drop 1 = decimal c.val := rfl
    have htake : (ofChar '#' :: decimal c.val).take 1 = str "#" := rfl
    have hnot : ∀ s : Str, s.head? ≠ some (ofChar '#') → ofChar '#' :: decimal c.val ≠ s := by
      rintro s hhead rfl
      exact hhead rfl
    have hdigits : (decimal c.val).all isDigit = true :=
      List.all_eq_true.2 fun d hd => isDigit_of_mem_decimal hd
    have hcode : Codecs.codePoint? c.val = some c := Codecs.codePoint?_val c
    rw [hhash, List.singleton_append, reference, if_neg (hnot (str "amp") (by decide)),
      if_neg (hnot (str "lt") (by decide)), if_neg (hnot (str "gt") (by decide)),
      if_neg (hnot (str "quot") (by decide)), if_neg (hnot (str "apos") (by decide)), hdrop,
      if_pos ⟨htake, decimal_ne_nil _, hdigits⟩, natOf_decimal, hcode]
    exact if_neg (by rw [h]; decide)
  -- The semicolon is where that happens.
  have hlast : references.feed (some (str "#" ++ decimal c.val)) (str ";") = none := by
    have hstep : references.step (some (str "#" ++ decimal c.val)) (ofChar ';') = none := by
      simp only [references, if_true, hnumber, Option.map_none]
    show references.feed _ [ofChar ';'] = none
    rw [Decoder.feed, hstep]
  have hbefore := Decoder.feed_trans hopen (feed_name hname (str "#"))
  rw [charRef, Decoder.feed_append, hbefore]
  dsimp only
  rw [hlast]

/-- A character that is written as it is. -/
theorem getsOver_shown {c : CodePoint} (h : c ≠ ofChar '&') :
    references.GetsOver none (shown c) (isXmlChar c) none [c] := by
  rcases shown_cases c with hself | ⟨href, hno⟩
  · have hstep :
      references.step none c = if isXmlChar c = true then some (none, [c]) else none := by
      simp only [references, h, if_false]
    rw [hself]
    unfold Decoder.GetsOver
    rw [Decoder.feed, hstep]
    cases isXmlChar c with
    | false => rfl
    | true => rfl
  · unfold Decoder.GetsOver
    rw [href, feed_charRef hno, hno]
    rfl

/-- A character of a text as it stands in the document. -/
def cdata (c : CodePoint) : Str := (escapeCdata [c]).flatMap shown

/-- A character of an attribute as it stands in the document. -/
def attrText (c : CodePoint) : Str := (escapeAttrib [c]).flatMap shown

/-- The text of an element is written character by character. -/
theorem shown_escapeCdata (s : Str) : (escapeCdata s).flatMap shown = s.flatMap cdata := by
  rw [escapeCdata_flatMap]
  exact List.flatMap_assoc

/-- The value of an attribute is written character by character. -/
theorem shown_escapeAttrib (s : Str) : (escapeAttrib s).flatMap shown = s.flatMap attrText := by
  rw [escapeAttrib_flatMap]
  exact List.flatMap_assoc

/-- One character is written as it is shown. -/
theorem flatMap_shown_singleton (c : CodePoint) : [c].flatMap shown = shown c := by
  rw [List.flatMap_cons, List.flatMap_nil, List.append_nil]

/-- The reader of references takes a character that is written for the character. -/
theorem getsOver_cdata (c : CodePoint) :
    references.GetsOver none (cdata c) (isXmlChar c) none [c] := by
  rcases escapeCdata_cases c with (rfl | rfl | rfl) | ⟨hamp, -, hself⟩
  · exact .of_feed (by decide)
  · exact .of_feed (by decide)
  · exact .of_feed (by decide)
  · rw [cdata, hself, flatMap_shown_singleton]
    exact getsOver_shown hamp

/-- Each character of an attribute is read back, if a document may have it. -/
theorem getsOver_attrText (c : CodePoint) :
    references.GetsOver none (attrText c) (isXmlChar c) none [c] := by
  rcases escapeAttrib_cases c with (rfl | rfl | rfl | rfl | rfl | rfl | rfl) |
    ⟨hamp, -, -, -, -, -, hself⟩
  · exact .of_feed (by decide)
  · exact .of_feed (by decide)
  · exact .of_feed (by decide)
  · exact .of_feed (by decide)
  · exact .of_feed (by decide)
  · exact .of_feed (by decide)
  · exact .of_feed (by decide)
  · rw [attrText, hself, flatMap_shown_singleton]
    exact getsOver_shown hamp

/-! ## Texts and attributes -/

/-- The characters that a reader makes a line feed. -/
def isLineEnd (c : CodePoint) : Bool := c = ofChar '\r' || c = ofChar '\n'

/-- The characters that end an attribute or a text, or that stand for white space. -/
def isDelimiter (c : CodePoint) : Bool :=
  c = ofChar '"' || c = ofChar '<' || c = ofChar '\t' || isLineEnd c

/-- A reference is a plain text. -/
theorem any_charRef (c : CodePoint) : (charRef c).any isDelimiter = false := by
  refine List.any_eq_false.2 fun d hd => ?_
  rcases mem_charRef hd with rfl | rfl | rfl | hdigit
  · decide
  · decide
  · decide
  · intro hdelimiter
    simp only [isDelimiter, isLineEnd, Bool.or_eq_true, decide_eq_true_eq] at hdelimiter
    rcases hdelimiter with ((rfl | rfl) | rfl) | rfl | rfl <;> revert hdigit <;> decide

/-- So is a character that is written as it is, unless it is a delimiter. -/
theorem any_shown {c : CodePoint} (h : isDelimiter c = false) :
    (shown c).any isDelimiter = false := by
  rcases shown_cases c with hself | ⟨href, -⟩
  · rw [hself, List.any_cons, h]
    rfl
  · rw [href]
    exact any_charRef c

/-- An attribute has no delimiters. -/
theorem any_attrText (c : CodePoint) : (attrText c).any isDelimiter = false := by
  rcases escapeAttrib_cases c with (rfl | rfl | rfl | rfl | rfl | rfl | rfl) |
    ⟨-, hlt, hquot, hcr, hlf, htab, hself⟩
  · decide
  · decide
  · decide
  · decide
  · decide
  · decide
  · decide
  · rw [attrText, hself, flatMap_shown_singleton]
    exact any_shown (by simp [isDelimiter, isLineEnd, hlt, hquot, hcr, hlf, htab])

/-- What delimits an attribute is not in it as it is written. -/
theorem not_isDelimiter {s : Str} {d : CodePoint} (h : d ∈ s.flatMap attrText) :
    d ≠ ofChar '"' ∧ d ≠ ofChar '<' ∧ d ≠ ofChar '\t' ∧ isLineEnd d = false := by
  obtain ⟨c, -, hc⟩ := List.mem_flatMap.1 h
  have hnot := List.any_eq_false.1 (any_attrText c) d hc
  simpa [isDelimiter, and_assoc] using hnot

/-- What has no line end stays as it is. -/
theorem lineEnds_append {w : Str} (hne : w ≠ []) (hw : ∀ c ∈ w, isLineEnd c = false) (cr : Bool)
    (s : Str) : lineEnds cr (w ++ s) = w ++ lineEnds false s := by
  induction w generalizing cr with
  | nil => exact absurd rfl hne
  | cons c w ih =>
    obtain ⟨hc, hw⟩ := List.forall_mem_cons.1 hw
    have hends : c ≠ ofChar '\r' ∧ c ≠ ofChar '\n' := by simpa [isLineEnd] using hc
    obtain ⟨hcr, hlf⟩ := hends
    rw [List.cons_append, lineEnds, if_neg hcr, if_neg fun h => hlf h.1, List.cons_append]
    cases w with
    | nil => rfl
    | cons d w => rw [ih (List.cons_ne_nil _ _) hw]

/-- A text without line ends has none to normalise. -/
theorem lineEnds_self {s : Str} (h : ∀ c ∈ s, isLineEnd c = false) : lineEnds false s = s := by
  cases s with
  | nil => rfl
  | cons c s =>
    have happend := lineEnds_append (List.cons_ne_nil c s) h false []
    rwa [List.append_nil, lineEnds, List.append_nil] at happend

/-- A way to write characters that leaves line ends alone, and makes no others. -/
structure KeepsLineEnds (word : CodePoint → Str) : Prop where
  cr : word (ofChar '\r') = [ofChar '\r']
  lf : word (ofChar '\n') = [ofChar '\n']
  other : ∀ c, isLineEnd c = false → word c ≠ [] ∧ (word c).any isLineEnd = false

/-- Line ends can be normalised before or after. -/
theorem lineEnds_flatMap {word : CodePoint → Str} (h : KeepsLineEnds word) (cr : Bool) (s : Str) :
    lineEnds cr (s.flatMap word) = (lineEnds cr s).flatMap word := by
  induction s generalizing cr with
  | nil => rfl
  | cons c s ih =>
    -- A line end is kept by `word`; another character leads to no line end.
    rw [List.flatMap_cons, lineEnds]
    by_cases hcr : c = ofChar '\r'
    · rw [if_pos hcr, hcr, h.cr, List.flatMap_cons, h.lf, List.singleton_append, lineEnds,
        if_pos rfl, ih]
      rfl
    · rw [if_neg hcr]
      by_cases hlf : c = ofChar '\n'
      · have hne : ofChar '\n' ≠ ofChar '\r' := by decide
        subst hlf
        rw [h.lf, List.singleton_append, lineEnds, if_neg hne]
        cases cr with
        | true => rw [if_pos ⟨rfl, rfl⟩, if_pos ⟨rfl, rfl⟩, ih]
        | false =>
          rw [if_neg (by simp), if_neg (by simp), ih, List.flatMap_cons, h.lf]
          rfl
      · obtain ⟨hword, hchars⟩ := h.other c (by simp [isLineEnd, hcr, hlf])
        have hnone : ∀ d ∈ word c, isLineEnd d = false := fun d hd =>
          Bool.eq_false_of_not_eq_true (List.any_eq_false.1 hchars d hd)
        rw [if_neg fun hand => hlf hand.1, lineEnds_append hword hnone, ih, List.flatMap_cons]

/-- No character is written as nothing. -/
theorem shown_ne_nil (c : CodePoint) : shown c ≠ [] := by
  rcases shown_cases c with hself | ⟨href, -⟩
  · rw [hself]
    exact List.cons_ne_nil _ _
  · rw [href]
    exact List.cons_ne_nil _ _

/-- How the text of an element is written keeps its line ends. -/
theorem keepsLineEnds_cdata : KeepsLineEnds cdata where
  cr := by decide
  lf := by decide
  other := by
    intro c hc
    rcases escapeCdata_cases c with (rfl | rfl | rfl) | ⟨-, -, hself⟩
    · decide
    · decide
    · decide
    · rw [cdata, hself, flatMap_shown_singleton]
      refine ⟨shown_ne_nil c, ?_⟩
      rcases shown_cases c with hshown | ⟨href, -⟩
      · rw [hshown, List.any_cons, hc]
        rfl
      · have hnone := List.any_eq_false.1 (any_charRef c)
        rw [href]
        refine List.any_eq_false.2 fun d hd hend => hnone d hd ?_
        rw [isDelimiter, hend, Bool.or_true]

/-- Line ends are characters of a document before and after. -/
theorem all_lineEnds (cr : Bool) (s : Str) : (lineEnds cr s).all isXmlChar = s.all isXmlChar := by
  induction s generalizing cr with
  | nil => rfl
  | cons c s ih =>
    have hends : isXmlChar (ofChar '\r') = true ∧ isXmlChar (ofChar '\n') = true := by decide
    rw [lineEnds, List.all_cons]
    split_ifs with hcr hlf
    · rw [List.all_cons, ih, hcr, hends.1, hends.2]
    · rw [ih, hlf.1, hends.2, Bool.true_and]
    · rw [List.all_cons, ih]

/-- A text is read but for its line ends, if it has only characters that a document may have. -/
theorem readText_cdata (s : Str) : readText (s.flatMap cdata) =
    if s.all isXmlChar = true then some (lineEnds false s) else none := by
  have hover := Decoder.GetsOver.flatMap getsOver_cdata (lineEnds false s)
  rw [readText, lineEnds_flatMap keepsLineEnds_cdata, hover.decode rfl, all_lineEnds,
    List.flatMap_singleton']

/-- So is the value of an attribute, with its line ends. -/
theorem readAttr_attrText (s : Str) : readAttr (s.flatMap attrText) =
    if s.all isXmlChar = true then some s else none := by
  have hmap : ((s.flatMap attrText).map fun c =>
      if c = ofChar '\n' ∨ c = ofChar '\t' then ofChar ' ' else c) = s.flatMap attrText := by
    refine (List.map_congr_left fun d hd => ?_).trans (List.map_id _)
    obtain ⟨-, -, htab, hend⟩ := not_isDelimiter hd
    have hlf : d ≠ ofChar '\n' := by
      rintro rfl
      revert hend
      decide
    exact if_neg fun h => h.elim hlf htab
  have hover := Decoder.GetsOver.flatMap getsOver_attrText s
  rw [readAttr, lineEnds_self fun d hd => (not_isDelimiter hd).2.2.2, hmap, hover.decode rfl,
    List.flatMap_singleton']

/-! ## Tags -/

/-- A name: some characters, each of which a name may have. -/
def IsName (s : Str) : Prop := s ≠ [] ∧ ∀ c ∈ s, isNameChar c = true

/-- A character of a name is no delimiter of a tag. -/
theorem ne_of_isNameChar {c : CodePoint} (h : isNameChar c = true) :
    c ≠ ofChar '/' ∧ c ≠ ofChar '>' ∧ c ≠ ofChar '=' ∧ c ≠ ofChar ' ' := by
  refine ⟨?_, ?_, ?_, ?_⟩ <;> (rintro rfl; revert h; decide)

/-- The name of a start tag is taken in. -/
theorem feed_startTag {name : Str} (h : ∀ c ∈ name, isNameChar c = true) (tag : Str) :
    reader.feed (.startTag tag) name = some (.startTag (tag ++ name), []) := by
  induction name generalizing tag with
  | nil => rw [List.append_nil]; rfl
  | cons c name ih =>
    obtain ⟨hc, hname⟩ := List.forall_mem_cons.1 h
    have hstep : reader.step (.startTag tag) c = some (.startTag (tag ++ [c]), []) := by
      simp only [reader, hc, if_true]
    have hfeed := Decoder.feed_cons hstep (ih hname (tag ++ [c]))
    rwa [List.append_assoc] at hfeed

/-- A tag begins after the bracket. -/
theorem feed_markup {tag : Str} (h : IsName tag) :
    reader.feed .markup tag = some (.startTag tag, []) := by
  obtain ⟨hne, hchars⟩ := h
  obtain ⟨c, name, rfl⟩ := List.exists_cons_of_ne_nil hne
  obtain ⟨hc, hname⟩ := List.forall_mem_cons.1 hchars
  have hstep : reader.step .markup c = some (.startTag [c], []) := by
    simp only [reader, (ne_of_isNameChar hc).1, if_false, hc, if_true]
  exact Decoder.feed_cons hstep (feed_startTag hname [c])

/-- The name of an end tag is taken in. -/
theorem feed_closeTag {name : Str} (h : ∀ c ∈ name, isNameChar c = true) (tag : Str) :
    reader.feed (.closeTag tag) name = some (.closeTag (tag ++ name), []) := by
  induction name generalizing tag with
  | nil => rw [List.append_nil]; rfl
  | cons c name ih =>
    obtain ⟨hc, hname⟩ := List.forall_mem_cons.1 h
    have hstep : reader.step (.closeTag tag) c = some (.closeTag (tag ++ [c]), []) := by
      simp only [reader, (ne_of_isNameChar hc).2.1, if_false, hc, if_true]
    have hfeed := Decoder.feed_cons hstep (ih hname (tag ++ [c]))
    rwa [List.append_assoc] at hfeed

/-- An end tag. -/
theorem feed_close {tag : Str} (h : IsName tag) :
    reader.feed (.content []) (str "</" ++ tag ++ str ">") = some (.content [], [.close tag]) := by
  have hopen : reader.feed (.content []) (str "</") = some (.closeTag [], []) := by decide
  have hstep : reader.step (.closeTag tag) (ofChar '>') = some (.content [], [.close tag]) := rfl
  have hend : reader.feed (.closeTag tag) [ofChar '>'] = some (.content [], [.close tag]) :=
    Decoder.feed_cons hstep rfl
  exact Decoder.feed_trans (Decoder.feed_trans hopen (feed_closeTag h.2 [])) hend

/-- The name of an attribute is taken in. -/
theorem feed_attrName {name : Str} (h : ∀ c ∈ name, isNameChar c = true) (tag : Str)
    (attrib : List (Str × Str)) (before : Str) :
    reader.feed (.attrName tag attrib before) name =
      some (.attrName tag attrib (before ++ name), []) := by
  induction name generalizing before with
  | nil => rw [List.append_nil]; rfl
  | cons c name ih =>
    obtain ⟨hc, hname⟩ := List.forall_mem_cons.1 h
    have hstep : reader.step (.attrName tag attrib before) c =
        some (.attrName tag attrib (before ++ [c]), []) := by
      simp only [reader, (ne_of_isNameChar hc).2.2.1, if_false, hc, if_true]
    have hfeed := Decoder.feed_cons hstep (ih hname (before ++ [c]))
    rwa [List.append_assoc] at hfeed

/-- The value of an attribute is taken in up to its quote. -/
theorem feed_attrValue {value : Str} (h : ∀ c ∈ value, c ≠ ofChar '"' ∧ c ≠ ofChar '<') (tag : Str)
    (attrib : List (Str × Str)) (name raw : Str) :
    reader.feed (.attrValue tag attrib name raw) value =
      some (.attrValue tag attrib name (raw ++ value), []) := by
  induction value generalizing raw with
  | nil => rw [List.append_nil]; rfl
  | cons c value ih =>
    obtain ⟨⟨hquot, hlt⟩, hvalue⟩ := List.forall_mem_cons.1 h
    have hstep : reader.step (.attrValue tag attrib name raw) c =
        some (.attrValue tag attrib name (raw ++ [c]), []) := by
      simp only [reader, hquot, hlt, if_false]
    have hfeed := Decoder.feed_cons hstep (ih hvalue (raw ++ [c]))
    rwa [List.append_assoc] at hfeed

/-- The reader is behind the name of a start tag, or behind an attribute. -/
def Behind (q : State) (tag : Str) (attrib : List (Str × Str)) : Prop :=
  ∀ c, isNameChar c = false → reader.step q c = inTag tag attrib c

/-- Behind the name of a start tag there are no attributes yet. -/
theorem behind_startTag (tag : Str) : Behind (.startTag tag) tag [] := by
  intro c hc
  simp only [reader, hc, Bool.false_eq_true, if_false]

/-- Behind the value of an attribute another one may come. -/
theorem behind_afterValue (tag : Str) (attrib : List (Str × Str)) :
    Behind (.afterValue tag attrib) tag attrib := fun _ _ => rfl

/-- A name is in ASCII. -/
theorem lt_of_isNameChar {c : CodePoint} (h : isNameChar c = true) : c.val < 0x80 := by
  simp only [isNameChar, Bool.or_eq_true, Bool.and_eq_true, decide_eq_true_eq] at h
  rcases h with (((((h | h) | h) | rfl) | rfl) | rfl) | rfl
  · omega
  · omega
  · omega
  · decide
  · decide
  · decide
  · decide

/-- A character of ASCII is written as it is. -/
theorem shown_ascii {c : CodePoint} (h : c.val < 0x80) : shown c = [c] := by
  have henc : Codecs.utf8Enc c = some [UInt8.ofNat c.val] := if_pos h
  rw [shown, henc]
  rfl

/-- So it stands in the document as it is. -/
theorem shown_name {s : Str} (h : ∀ c ∈ s, isNameChar c = true) : s.flatMap shown = s := by
  have hself : ∀ c ∈ s, shown c = [c] := fun c hc => shown_ascii (lt_of_isNameChar (h c hc))
  rw [List.flatMap_congr hself, List.flatMap_singleton']

/-- An attribute is written as its name and its value between quotes. -/
theorem shown_serializeAttr {attr : Str × Str} (h : IsName attr.1) :
    (serializeAttr attr).flatMap shown =
      [ofChar ' '] ++ attr.1 ++ [ofChar '=', ofChar '"'] ++ attr.2.flatMap attrText ++
        [ofChar '"'] := by
  have hspace : (str " ").flatMap shown = [ofChar ' '] := by decide
  have hequals : (str "=\"").flatMap shown = [ofChar '=', ofChar '"'] := by decide
  have hquot : (str "\"").flatMap shown = [ofChar '"'] := by decide
  rw [serializeAttr, List.flatMap_append, List.flatMap_append, List.flatMap_append,
    List.flatMap_append, hspace, hequals, hquot, shown_name h.2, shown_escapeAttrib]

/-- An attribute is read as it was, if it has only characters that a document may have. -/
theorem getsOver_serializeAttr {q : State} {tag : Str} {attrib : List (Str × Str)}
    (hq : Behind q tag attrib) {attr : Str × Str} (hname : IsName attr.1) :
    reader.GetsOver q ((serializeAttr attr).flatMap shown) (attr.2.all isXmlChar)
      (.afterValue tag (attrib ++ [attr])) [] := by
  rw [shown_serializeAttr hname]
  obtain ⟨name, value⟩ := attr
  obtain ⟨hne, hchars⟩ := hname
  obtain ⟨c, name, rfl⟩ := List.exists_cons_of_ne_nil hne
  obtain ⟨hc, hname⟩ := List.forall_mem_cons.1 hchars
  have hsep : reader.step q (ofChar ' ') = some (.attrs tag attrib, []) :=
    hq (ofChar ' ') (by decide)
  have hspace : reader.feed q [ofChar ' '] = some (.attrs tag attrib, []) :=
    Decoder.feed_cons hsep rfl
  have hfirst : reader.step (.attrs tag attrib) c = some (.attrName tag attrib [c], []) := by
    simp only [reader, hc, if_true]
  have hrest := Decoder.feed_cons hfirst (feed_attrName hname tag attrib [c])
  have heq : reader.step (.attrName tag attrib (c :: name)) (ofChar '=') =
      some (.equals tag attrib (c :: name), []) := rfl
  have hquot : reader.step (.equals tag attrib (c :: name)) (ofChar '"') =
      some (.attrValue tag attrib (c :: name) [], []) := rfl
  have hequals : reader.feed (.attrName tag attrib (c :: name)) [ofChar '=', ofChar '"'] =
      some (.attrValue tag attrib (c :: name) [], []) :=
    Decoder.feed_cons heq (Decoder.feed_cons hquot rfl)
  have hplain : ∀ d ∈ value.flatMap attrText, d ≠ ofChar '"' ∧ d ≠ ofChar '<' := fun d hd =>
    ⟨(not_isDelimiter hd).1, (not_isDelimiter hd).2.1⟩
  have hraw := feed_attrValue hplain tag attrib (c :: name) []
  -- only here can the value be refused
  have hlast : reader.GetsOver (.attrValue tag attrib (c :: name) (value.flatMap attrText))
      [ofChar '"'] (value.all isXmlChar) (.afterValue tag (attrib ++ [(c :: name, value)])) [] := by
    unfold Decoder.GetsOver
    simp only [Decoder.feed, reader, if_true, readAttr_attrText]
    cases value.all isXmlChar with
    | false => rfl
    | true => rfl
  have hbefore := Decoder.feed_trans (Decoder.feed_trans (Decoder.feed_trans hspace hrest) hequals)
    hraw
  exact (Decoder.GetsOver.of_feed hbefore).trans hlast

/-- The characters of the values. -/
def cleanAttrs (attrib : List (Str × Str)) : Bool := attrib.all fun attr => attr.2.all isXmlChar

/-- All attributes of a start tag are read back. -/
theorem getsOver_attrs {attrs : List (Str × Str)} (h : ∀ attr ∈ attrs, IsName attr.1) {q : State}
    {tag : Str} {attrib : List (Str × Str)} (hq : Behind q tag attrib) :
    ∃ q', Behind q' tag (attrib ++ attrs) ∧
      reader.GetsOver q ((attrs.flatMap serializeAttr).flatMap shown) (cleanAttrs attrs) q' [] := by
  induction attrs generalizing q attrib with
  | nil => exact ⟨q, by rwa [List.append_nil], .of_feed rfl⟩
  | cons attr attrs ih =>
    obtain ⟨hname, hattrs⟩ := List.forall_mem_cons.1 h
    obtain ⟨q', hq', hover⟩ := ih hattrs (behind_afterValue tag (attrib ++ [attr]))
    refine ⟨q', by rwa [List.append_assoc] at hq', ?_⟩
    rw [List.flatMap_cons, List.flatMap_append]
    exact (getsOver_serializeAttr hq hname).trans hover

/-! ## Elements -/

/-- The characters before a tag. -/
theorem feed_content {w : Str} (h : ∀ c ∈ w, c ≠ ofChar '<') (raw : Str) :
    reader.feed (.content raw) w = some (.content (raw ++ w), []) := by
  induction w generalizing raw with
  | nil => rw [List.append_nil]; rfl
  | cons c w ih =>
    obtain ⟨hc, hw⟩ := List.forall_mem_cons.1 h
    have hstep : reader.step (.content raw) c = some (.content (raw ++ [c]), []) := by
      simp only [reader, hc, if_false]
    have hfeed := Decoder.feed_cons hstep (ih hw (raw ++ [c]))
    rwa [List.append_assoc] at hfeed

/-- They are put out when the tag begins. -/
theorem getsOver_flush {raw : Str} {p p' : Bool} {out out' : List Event} {q : State} {s : Str}
    (hraw : flush raw = if p = true then some out else none)
    (h : reader.GetsOver (.content []) (ofChar '<' :: s) p' q out') :
    reader.GetsOver (.content raw) (ofChar '<' :: s) (p && p') q (out ++ out') := by
  have hnil : reader.step (.content []) (ofChar '<') = some (.markup, []) := by decide
  have hrest : reader.GetsOver .markup s p' q out' := (Decoder.feed_silent hnil s).symm.trans h
  have htag : reader.GetsOver (.content raw) [ofChar '<'] p .markup out := by
    unfold Decoder.GetsOver
    simp only [Decoder.feed, reader, if_true, hraw]
    cases p with
    | false => rfl
    | true => simp
  exact htag.trans hrest

/-- A text has no tag in it. -/
theorem ne_of_mem_cdata {s : Str} : ∀ d ∈ s.flatMap cdata, d ≠ ofChar '<' := by
  intro d hd
  obtain ⟨c, -, hc⟩ := List.mem_flatMap.1 hd
  have hnone : (cdata c).any (fun d => d = ofChar '<') = false := by
    rcases escapeCdata_cases c with (rfl | rfl | rfl) | ⟨-, hlt, hself⟩
    · decide
    · decide
    · decide
    · rw [cdata, hself, flatMap_shown_singleton]
      rcases shown_cases c with hshown | ⟨href, -⟩
      · rw [hshown]
        simp [hlt]
      · rw [href]
        refine List.any_eq_false.2 fun d hd hmark => List.any_eq_false.1 (any_charRef c) d hd ?_
        rw [of_decide_eq_true hmark]
        decide
  simpa using List.any_eq_false.1 hnone d hc

/-- The text of an element is read back, if a document may have it. -/
theorem flush_cdata (s : Str) : flush (s.flatMap cdata) =
    if s.all isXmlChar = true then some (textEvents s) else none := by
  cases s with
  | nil => rfl
  | cons c s =>
    have hword : cdata c ≠ [] := by
      rcases escapeCdata_cases c with (rfl | rfl | rfl) | ⟨-, -, hself⟩
      · decide
      · decide
      · decide
      · rw [cdata, hself, flatMap_shown_singleton]
        exact shown_ne_nil c
    have hne : (c :: s).flatMap cdata ≠ [] := List.append_ne_nil_of_left_ne_nil hword _
    rw [flush, if_neg hne, readText_cdata, textEvents, if_neg (List.cons_ne_nil c s)]
    cases (c :: s).all isXmlChar with
    | false => rfl
    | true => rfl

mutual

/-- The tags and the attributes have names. -/
def Element.Named : Element → Prop
  | .mk tag attrib _ children =>
    IsName tag ∧ (∀ attr ∈ attrib, IsName attr.1) ∧ NamedAll children

/-- Every child has names. -/
def NamedAll : List Element → Prop
  | [] => True
  | e :: es => e.Named ∧ NamedAll es

end

mutual

/-- The texts and the attributes have only characters that a document may have. -/
def Element.clean : Element → Bool
  | .mk _ attrib text children => cleanAttrs attrib && (text.all isXmlChar && cleanAll children)

/-- Every child is clean. -/
def cleanAll : List Element → Bool
  | [] => true
  | e :: es => e.clean && cleanAll es

end

/-- An element begins with a tag. -/
theorem exists_serialize (e : Element) : ∃ s, e.serialize = ofChar '<' :: s := by
  obtain ⟨tag, attrib, text, children⟩ := e
  rw [Element.serialize, List.append_assoc, List.append_assoc]
  exact ⟨_, rfl⟩

/-- So does what follows a text. -/
theorem exists_serializeAll (es : List Element) (tag : Str) :
    ∃ s, (serializeAll es).flatMap shown ++ (str "</" ++ tag ++ str ">") = ofChar '<' :: s := by
  cases es with
  | nil => exact ⟨_, rfl⟩
  | cons e es =>
    have hlt : shown (ofChar '<') = [ofChar '<'] := by decide
    obtain ⟨s, hs⟩ := exists_serialize e
    rw [serializeAll, hs, List.cons_append, List.flatMap_cons, hlt]
    exact ⟨_, rfl⟩

mutual

/-- An element is read, but for the line ends of its texts. -/
theorem getsOver_serialize : (e : Element) → e.Named →
    reader.GetsOver (.content []) (e.serialize.flatMap shown) e.clean (.content []) e.events
  | .mk tag attrib text children, h => by
    obtain ⟨htag, hattrib, hchildren⟩ := h
    have hlt : (str "<").flatMap shown = str "<" := by decide
    have hopen : reader.feed (.content []) (str "<") = some (.markup, []) := by decide
    obtain ⟨q, hq, hattrs⟩ := getsOver_attrs hattrib (behind_startTag tag)
    rw [List.nil_append] at hq
    have htagOpen := Decoder.feed_trans hopen (feed_markup htag)
    have hstart := (Decoder.GetsOver.of_feed htagOpen).trans hattrs
    rw [Element.serialize, Element.events, Element.clean, List.flatMap_append, List.flatMap_append,
      List.flatMap_append, hlt, shown_name htag.2]
    refine hstart.trans ?_
    cases hempty : text.isEmpty && children.isEmpty with
    | true =>
      obtain ⟨htext, hchildren⟩ := (Bool.and_eq_true_iff).1 hempty
      rw [List.isEmpty_iff.1 htext, List.isEmpty_iff.1 hchildren, if_pos rfl]
      have hlit : (str " />").flatMap shown = [ofChar ' ', ofChar '/', ofChar '>'] := by decide
      have hspace : reader.step q (ofChar ' ') = some (.attrs tag attrib, []) :=
        hq (ofChar ' ') (by decide)
      have hslash : reader.step (.attrs tag attrib) (ofChar '/') = some (.empty tag attrib, []) :=
        rfl
      have hend : reader.step (.empty tag attrib) (ofChar '>') =
          some (.content [], [.start tag attrib, .close tag]) := rfl
      have hall : reader.feed q [ofChar ' ', ofChar '/', ofChar '>'] =
          some (.content [], [.start tag attrib, .close tag]) :=
        Decoder.feed_cons hspace (Decoder.feed_cons hslash (Decoder.feed_cons hend rfl))
      rw [hlit]
      exact .of_feed hall
    | false =>
      have hgt : (str ">").flatMap shown = [ofChar '>'] := by decide
      have hclose : (str "</").flatMap shown = str "</" := by decide
      have hend : reader.step q (ofChar '>') = some (.content [], [.start tag attrib]) :=
        hq (ofChar '>') (by decide)
      have hbegin : reader.feed q [ofChar '>'] = some (.content [], [.start tag attrib]) :=
        Decoder.feed_cons hend rfl
      have hrest := (getsOver_serializeAll children hchildren).trans
        (Decoder.GetsOver.of_feed (feed_close htag))
      obtain ⟨s, hs⟩ := exists_serializeAll children tag
      rw [hs, Bool.and_true] at hrest
      -- the text is read when the next tag begins
      have hflush := getsOver_flush (flush_cdata text) hrest
      have htext := feed_content (ne_of_mem_cdata (s := text)) []
      have hcontent := (Decoder.GetsOver.of_feed (Decoder.feed_trans hbegin htext)).trans hflush
      rw [← hs] at hcontent
      rw [if_neg (by decide)]
      have hlast : str ">" = [ofChar '>'] := rfl
      rw [hlast] at hcontent
      simp only [List.flatMap_append, hgt, hclose, shown_name htag.2, shown_escapeCdata]
      simpa only [List.append_assoc, Bool.true_and, List.nil_append, List.singleton_append]
        using hcontent

/-- The elements in an element are read back, one after the other. -/
theorem getsOver_serializeAll : (es : List Element) → NamedAll es →
    reader.GetsOver (.content []) ((serializeAll es).flatMap shown) (cleanAll es) (.content [])
      (eventsAll es)
  | [], _ => .of_feed rfl
  | e :: es, h => by
    rw [serializeAll, List.flatMap_append]
    exact (getsOver_serialize e h.1).trans (getsOver_serializeAll es h.2)

end

/-- Reads a document in UTF-8. -/
def read (bs : Bytes) : Option (List Event) := (Codecs.utf8.decode bs).bind reader.decode

/-- What was written is read as the element it was written from, unless that has a character that a
document may not have. -/
theorem read_tostring {e : Element} (h : e.Named) :
    read (tostring e) = if e.clean = true then some e.events else none := by
  have hfeed : Codecs.utf8.GetsOver none (tostring e) (e.serialize.all fun _ => true) none
      (e.serialize.flatMap shown) :=
    Decoder.GetsOver.flatMap (fun c => .of_feed (feed_writeChar c)) e.serialize
  have hdecode : Codecs.utf8.decode (tostring e) = some (e.serialize.flatMap shown) :=
    (hfeed.decode rfl).trans (if_pos (List.all_eq_true.2 fun _ _ => rfl))
  rw [read, hdecode]
  exact (getsOver_serialize e h).decode rfl

end Xml
