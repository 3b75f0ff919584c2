import Vumi2.Lib.Codecs
import Vumi2.Lib.Numerals

/-!
# Query strings

`urlencode` of Python's `urllib.parse`, with the `quote_plus` that it quotes by, and `parse_qsl`,
which reads a query string. A quoted text is made of few characters (`IsQuoted`), so the separators
of a query string are its own; and `parse_qsl` reads what `urlencode` has written
(`parseQsl_urlencode`).
-/

namespace UrlEncoding

open Text

/-- `_ALWAYS_SAFE`. -/
def alwaysSafe (b : UInt8) : Bool :=
  0x30 ≤ b.toNat && b.toNat ≤ 0x39 || 0x41 ≤ b.toNat && b.toNat ≤ 0x5A ||
    0x61 ≤ b.toNat && b.toNat ≤ 0x7A || b = 0x5F || b = 0x2E || b = 0x2D || b = 0x7E

/-- A digit of `%02X`. -/
def hexDigit (n : ℕ) : CodePoint :=
  ofByte (UInt8.ofNat (if n < 10 then 0x30 + n else 0x37 + n))

/-- `_Quoter`, for an octet. -/
def quoteByte (safe : UInt8 → Bool) (b : UInt8) : Str :=
  if (alwaysSafe b || safe b) = true then [ofByte b]
  else [ofChar '%', hexDigit (b.toNat / 16), hexDigit (b.toNat % 16)]

/-- `quote_from_bytes(bs, safe)`. -/
def quoteFromBytes (safe : UInt8 → Bool) (bs : Bytes) : Str := bs.flatMap (quoteByte safe)

/-- `string.replace(' ', '+')`. -/
def spaceToPlus (c : CodePoint) : CodePoint := if c = ofChar ' ' then ofChar '+' else c

/-- `string.replace('+', ' ')`. -/
def plusToSpace (c : CodePoint) : CodePoint := if c = ofChar '+' then ofChar ' ' else c

/-- The octet that `quote_plus` takes for safe, to replace it later. -/
def isSpace (b : UInt8) : Bool := b = 0x20

/-- `quote_plus(string)`, or `none` where the text has no encoding. -/
def quotePlus (string : Str) : Option Str :=
  (Codecs.utf8Encode string).map fun bs => (quoteFromBytes isSpace bs).map spaceToPlus

/-- `unquote_to_bytes` of an ASCII text. -/
def unquoteToBytes : Str → Bytes
  | [] => []
  | c :: s =>
    if c = ofChar '%' then
      match s with
      | a :: b :: rest =>
        match hexValue a, hexValue b with
        | some x, some y => UInt8.ofNat (16 * x + y) :: unquoteToBytes rest
        | _, _ => toByte c :: unquoteToBytes (a :: b :: rest)
      | s => toByte c :: unquoteToBytes s
    else toByte c :: unquoteToBytes s

/-- `unquote(string.replace('+', ' '))` of an ASCII text, or `none` where that is not UTF-8. -/
def unquotePlus (string : Str) : Option Str :=
  Codecs.utf8.decode (unquoteToBytes (string.map plusToSpace))

/-- A name and a value of a query string. -/
def encodePair (pair : Str × Str) : Option Str :=
  (quotePlus pair.1).bind fun name => (quotePlus pair.2).map fun value =>
    name ++ ofChar '=' :: value

/-- `urlencode(query)`. -/
def urlencode (query : List (Str × Str)) : Option Str :=
  (query.mapM encodePair).map fun pairs => [ofChar '&'].intercalate pairs

/-- `name_value.partition('=')`, with both parts unquoted. -/
def decodePair (name_value : Str) : Option (Str × Str) :=
  (unquotePlus (name_value.takeWhile fun c => c ≠ ofChar '=')).bind fun name =>
    (unquotePlus ((name_value.dropWhile fun c => c ≠ ofChar '=').drop 1)).map fun value =>
      (name, value)

/-- `parse_qsl(qs, keep_blank_values=True)`. -/
def parseQsl (qs : Str) : Option (List (Str × Str)) :=
  ((qs.splitOn (ofChar '&')).filter fun name_value => name_value ≠ []).mapM decodePair

/-! ## Quoting -/

/-- A character of a quoted text. -/
def IsQuoted (c : CodePoint) : Prop :=
  c = ofChar '%' ∨ c = ofChar '+' ∨ c.val < 0x80 ∧ alwaysSafe (toByte c) = true

instance (c : CodePoint) : Decidable (IsQuoted c) := inferInstanceAs (Decidable (_ ∨ _ ∨ _))

/-- A hexadecimal digit is read as its value. -/
theorem hexValue_hexDigit {n : ℕ} (h : n < 16) : hexValue (hexDigit n) = some n := by
  have hlt : (if n < 10 then 0x30 + n else 0x37 + n) < 256 := by split_ifs <;> omega
  have hval : (hexDigit n).val = if n < 10 then 0x30 + n else 0x37 + n := by
    rw [hexDigit, ofByte_val, UInt8.toNat_ofNat', Nat.mod_eq_of_lt hlt]
  unfold hexValue
  rw [hval]
  split_ifs <;> first | omega | (congr 1; omega)

/-- An octet that stands for itself. -/
theorem lt_of_alwaysSafe {b : UInt8} (h : alwaysSafe b = true) : b.toNat < 0x80 := by
  simp only [alwaysSafe, Bool.or_eq_true, Bool.and_eq_true, decide_eq_true_eq] at h
  rcases h with ((((((h | h) | h) | rfl) | rfl) | rfl) | rfl)
  · omega
  · omega
  · omega
  · decide
  · decide
  · decide
  · decide

/-- An octet is the octet of its character. -/
theorem toByte_ofByte (b : UInt8) : toByte (ofByte b) = b := by
  apply UInt8.toNat_inj.1
  rw [toNat_toByte (by rw [ofByte_val]; exact b.toNat_lt), ofByte_val]

/-- What an octet is quoted as is quoted, or the blank that stands for itself. -/
theorem isQuoted_quoteByte {b : UInt8} {c : CodePoint} (h : c ∈ quoteByte isSpace b) :
    c = ofChar ' ' ∨ IsQuoted c ∧ c ≠ ofChar '+' := by
  unfold quoteByte at h
  split_ifs at h with hsafe
  · -- A safe octet stands for itself: letters and digits, some marks, and the blank.
    rw [List.mem_singleton] at h
    subst h
    rcases Bool.or_eq_true_iff.1 hsafe with halways | hspace
    · refine .inr ⟨.inr (.inr ⟨lt_of_alwaysSafe halways, by rwa [toByte_ofByte]⟩), fun hplus => ?_⟩
      have hb : b = toByte (ofChar '+') := by rw [← hplus, toByte_ofByte]
      rw [hb] at halways
      revert halways
      decide
    · rw [of_decide_eq_true hspace]
      exact .inl (by decide)
  · -- Any other is a percent sign and two digits.
    have hb := b.toNat_lt
    have hdigit : ∀ n < 16, IsQuoted (hexDigit n) ∧ hexDigit n ≠ ofChar '+' := by decide
    rcases List.mem_cons.1 h with rfl | h
    · exact .inr (by decide)
    · rcases List.mem_cons.1 h with rfl | h
      · exact .inr (hdigit _ (by omega))
      · rw [List.mem_singleton.1 h]
        exact .inr (hdigit _ (by omega))

/-- A quoted text. -/
theorem isQuoted_of_quotePlus {s quoted : Str} (h : quotePlus s = some quoted) :
    ∀ c ∈ quoted, IsQuoted c := by
  obtain ⟨bs, -, rfl⟩ := Option.map_eq_some_iff.1 h
  intro c hc
  obtain ⟨d, hd, rfl⟩ := List.mem_map.1 hc
  obtain ⟨b, -, hb⟩ := List.mem_flatMap.1 hd
  unfold spaceToPlus
  rcases isQuoted_quoteByte hb with rfl | ⟨hquoted, -⟩
  · exact .inr (.inl (if_pos rfl))
  · split_ifs
    · exact .inr (.inl rfl)
    · exact hquoted

/-- An octet is read back. -/
theorem unquoteToBytes_quoteByte (safe : UInt8 → Bool) (hsafe : safe (toByte (ofChar '%')) = false)
    (b : UInt8) (s : Str) : unquoteToBytes (quoteByte safe b ++ s) = b :: unquoteToBytes s := by
  unfold quoteByte
  split_ifs with h
  · -- A safe octet is no percent sign, so it is read as it stands.
    have hne : ofByte b ≠ ofChar '%' := by
      intro heq
      have hb : b = toByte (ofChar '%') := by rw [← heq, toByte_ofByte]
      rw [hb, hsafe] at h
      revert h
      decide
    show unquoteToBytes (ofByte b :: s) = _
    rw [unquoteToBytes.eq_def]
    dsimp only
    rw [if_neg hne, toByte_ofByte]
  · -- The two digits give the octet.
    have hb := b.toNat_lt
    have hhigh := hexValue_hexDigit (n := b.toNat / 16) (by omega)
    have hlow := hexValue_hexDigit (n := b.toNat % 16) (by omega)
    have hvalue : UInt8.ofNat (16 * (b.toNat / 16) + b.toNat % 16) = b := by
      rw [Nat.div_add_mod, UInt8.ofNat_toNat]
    show unquoteToBytes (ofChar '%' :: hexDigit (b.toNat / 16) :: hexDigit (b.toNat % 16) :: s) = _
    rw [unquoteToBytes.eq_def]
    dsimp only
    rw [if_pos rfl, hhigh, hlow]
    dsimp only
    rw [hvalue]

/-- What was quoted is unquoted to the same octets. -/
theorem unquoteToBytes_quoteFromBytes (bs : Bytes) :
    unquoteToBytes (quoteFromBytes isSpace bs) = bs := by
  induction bs with
  | nil => rfl
  | cons b bs ih =>
    rw [quoteFromBytes, List.flatMap_cons, unquoteToBytes_quoteByte isSpace (by decide)]
    exact congrArg (b :: ·) ih

/-- A quoted text is read back. -/
theorem unquotePlus_quotePlus {s quoted : Str} (h : quotePlus s = some quoted) :
    unquotePlus quoted = some s := by
  obtain ⟨bs, hbs, rfl⟩ := Option.map_eq_some_iff.1 h
  have hplus : ((quoteFromBytes isSpace bs).map spaceToPlus).map plusToSpace =
      quoteFromBytes isSpace bs := by
    rw [List.map_map]
    refine (List.map_congr_left fun c hc => ?_).trans (List.map_id _)
    obtain ⟨b, -, hb⟩ := List.mem_flatMap.1 hc
    show plusToSpace (spaceToPlus c) = c
    unfold plusToSpace spaceToPlus
    rcases isQuoted_quoteByte hb with rfl | ⟨-, hne⟩
    · rfl
    · by_cases hspace : c = ofChar ' '
      · rw [if_pos hspace, if_pos rfl, hspace]
      · rw [if_neg hspace, if_neg hne]
  rw [unquotePlus, hplus, unquoteToBytes_quoteFromBytes]
  exact Codecs.utf8_decode_encode hbs

/-! ## Query strings -/

/-- The separators of a query string are in no quoted text. -/
theorem ne_of_isQuoted {c : CodePoint} (h : IsQuoted c) :
    c ≠ ofChar '=' ∧ c ≠ ofChar '&' ∧ c ≠ ofChar '#' ∧ c ≠ ofChar '?' := by
  refine ⟨?_, ?_, ?_, ?_⟩ <;> (rintro rfl; revert h; decide)

/-- A pair that was encoded is decoded to the same pair. -/
theorem decodePair_encodePair {pair : Str × Str} {name_value : Str}
    (h : encodePair pair = some name_value) : decodePair name_value = some pair := by
  obtain ⟨name, hname, h⟩ := Option.bind_eq_some_iff.1 h
  obtain ⟨value, hvalue, rfl⟩ := Option.map_eq_some_iff.1 h
  have hne : ∀ c ∈ name, decide (c ≠ ofChar '=') = true := fun c hc =>
    decide_eq_true (ne_of_isQuoted (isQuoted_of_quotePlus hname c hc)).1
  have htake : (name ++ ofChar '=' :: value).takeWhile (fun c => c ≠ ofChar '=') = name := by
    rw [List.takeWhile_append_of_pos hne, List.takeWhile_cons_of_neg (by simp), List.append_nil]
  have hdrop : (name ++ ofChar '=' :: value).dropWhile (fun c => c ≠ ofChar '=') =
      ofChar '=' :: value := by
    rw [List.dropWhile_append_of_pos hne, List.dropWhile_cons_of_neg (by simp)]
  rw [decodePair, htake, hdrop, unquotePlus_quotePlus hname, Option.bind_some, List.drop_succ_cons,
    List.drop_zero, unquotePlus_quotePlus hvalue]
  rfl

/-- The characters of a name and a value. -/
theorem isQuoted_of_encodePair {pair : Str × Str} {name_value : Str}
    (h : encodePair pair = some name_value) :
    ∀ c ∈ name_value, c = ofChar '=' ∨ IsQuoted c := by
  obtain ⟨name, hname, h⟩ := Option.bind_eq_some_iff.1 h
  obtain ⟨value, hvalue, rfl⟩ := Option.map_eq_some_iff.1 h
  intro c hc
  rcases List.mem_append.1 hc with hc | hc
  · exact .inr (isQuoted_of_quotePlus hname c hc)
  · rcases List.mem_cons.1 hc with rfl | hc
    · exact .inl rfl
    · exact .inr (isQuoted_of_quotePlus hvalue c hc)

/-- What is written one by one is read one by one. -/
theorem mapM_mapM {α β : Type} {f : α → Option β} {g : β → Option α}
    (hfg : ∀ a b, f a = some b → g b = some a) {as : List α} {bs : List β}
    (h : as.mapM f = some bs) : bs.mapM g = some as := by
  induction as generalizing bs with
  | nil =>
    obtain rfl := Option.some.inj h
    rfl
  | cons a as ih =>
    rw [List.mapM_cons] at h
    obtain ⟨b, hb, h⟩ := Option.bind_eq_some_iff.1 h
    obtain ⟨bs, hbs, h⟩ := Option.bind_eq_some_iff.1 h
    obtain rfl := Option.some.inj h
    rw [List.mapM_cons, hfg a b hb, ih hbs]
    rfl

/-- What `mapM` gives was made of something. -/
theorem exists_of_mem_mapM {α β : Type} {f : α → Option β} {as : List α} {bs : List β}
    (h : as.mapM f = some bs) : ∀ b ∈ bs, ∃ a ∈ as, f a = some b := by
  induction as generalizing bs with
  | nil =>
    obtain rfl := Option.some.inj h
    exact fun b hb => absurd hb List.not_mem_nil
  | cons a as ih =>
    rw [List.mapM_cons] at h
    obtain ⟨b, hb, h⟩ := Option.bind_eq_some_iff.1 h
    obtain ⟨bs, hbs, h⟩ := Option.bind_eq_some_iff.1 h
    obtain rfl := Option.some.inj h
    intro b' hb'
    rcases List.mem_cons.1 hb' with rfl | hb'
    · exact ⟨a, List.mem_cons_self, hb⟩
    · obtain ⟨a', ha', hfa'⟩ := ih hbs b' hb'
      exact ⟨a', List.mem_cons_of_mem _ ha', hfa'⟩

/-- Everything that `mapM` gets has become something. -/
theorem exists_mapM_of_mem {α β : Type} {f : α → Option β} {as : List α} {bs : List β}
    (h : as.mapM f = some bs) : ∀ a ∈ as, ∃ b, f a = some b := by
  induction as generalizing bs with
  | nil => exact fun a ha => absurd ha List.not_mem_nil
  | cons a as ih =>
    rw [List.mapM_cons] at h
    obtain ⟨b, hb, h⟩ := Option.bind_eq_some_iff.1 h
    obtain ⟨bs, hbs, -⟩ := Option.bind_eq_some_iff.1 h
    exact List.forall_mem_cons.2 ⟨⟨b, hb⟩, ih hbs⟩

/-- `parse_qsl` reads what `urlencode` has written. -/
theorem parseQsl_urlencode {query : List (Str × Str)} {qs : Str} (h : urlencode query = some qs) :
    parseQsl qs = some query := by
  obtain ⟨pairs, hpairs, rfl⟩ := Option.map_eq_some_iff.1 h
  cases hnil : pairs with
  | nil =>
    rw [hnil] at hpairs
    have hquery := mapM_mapM (fun _ _ => decodePair_encodePair) hpairs
    obtain rfl := Option.some.inj hquery
    rfl
  | cons first rest =>
    -- No pair has an ampersand inside, and none is empty, as it has its equals sign.
    have hquoted : ∀ pair ∈ pairs, ofChar '&' ∉ pair ∧ pair ≠ [] := by
      intro pair hpair
      obtain ⟨a, -, ha⟩ := exists_of_mem_mapM hpairs pair hpair
      constructor
      · intro hmem
        rcases isQuoted_of_encodePair ha _ hmem with heq | hq
        · revert heq
          decide
        · exact (ne_of_isQuoted hq).2.1 rfl
      · rintro rfl
        obtain ⟨name, -, ha⟩ := Option.bind_eq_some_iff.1 ha
        obtain ⟨value, -, ha⟩ := Option.map_eq_some_iff.1 ha
        exact List.append_ne_nil_of_right_ne_nil name (List.cons_ne_nil _ _) ha
    -- So the text is split where it was joined, and no part is dropped.
    have hsplit : ([ofChar '&'].intercalate pairs).splitOn (ofChar '&') = pairs :=
      List.splitOn_intercalate _ (fun pair hpair => (hquoted pair hpair).1) (by rw [hnil]; simp)
    have hfilter : (pairs.filter fun name_value => name_value ≠ []) = pairs :=
      List.filter_eq_self.2 fun pair hpair => decide_eq_true (hquoted pair hpair).2
    rw [← hnil, parseQsl, hsplit, hfilter]
    exact mapM_mapM (fun _ _ => decodePair_encodePair) hpairs

/-- A query string that goes on with further parameters. -/
theorem urlencode_cons {pair next : Str × Str} {query : List (Str × Str)} {first rest : Str}
    (hfirst : urlencode [pair] = some first) (hrest : urlencode (next :: query) = some rest) :
    urlencode (pair :: next :: query) = some (first ++ ofChar '&' :: rest) := by
  obtain ⟨one, hone, rfl⟩ := Option.map_eq_some_iff.1 hfirst
  obtain ⟨pairs, hpairs, rfl⟩ := Option.map_eq_some_iff.1 hrest
  rw [List.mapM_cons] at hone
  obtain ⟨name_value, hname_value, hone⟩ := Option.bind_eq_some_iff.1 hone
  obtain rfl := Option.some.inj hone
  rw [List.mapM_cons] at hpairs
  obtain ⟨second, hsecond, hpairs⟩ := Option.bind_eq_some_iff.1 hpairs
  obtain ⟨others, hothers, hpairs⟩ := Option.bind_eq_some_iff.1 hpairs
  obtain rfl := Option.some.inj hpairs
  unfold urlencode
  rw [List.mapM_cons, hname_value, List.mapM_cons, hsecond, hothers]
  simp [List.intercalate]

/-- What holds of the parts and the separator holds of the joined text. -/
theorem forall_mem_intercalate {p : CodePoint → Prop} {sep : CodePoint} (hsep : p sep)
    {parts : List Str} (h : ∀ part ∈ parts, ∀ c ∈ part, p c) :
    ∀ c ∈ [sep].intercalate parts, p c := by
  induction parts with
  | nil => exact fun c hc => absurd hc List.not_mem_nil
  | cons part parts ih =>
    obtain ⟨hpart, hparts⟩ := List.forall_mem_cons.1 h
    cases parts with
    | nil =>
      rw [List.intercalate_singleton]
      exact hpart
    | cons next parts =>
      rw [List.intercalate_cons_cons]
      intro c hc
      rcases List.mem_append.1 hc with hc | hc
      · rcases List.mem_append.1 hc with hc | hc
        · exact hpart c hc
        · rwa [List.mem_singleton.1 hc]
      · exact ih hparts c hc

/-- A value that has been written can be written alone. -/
theorem exists_urlencode_of_mem {query : List (Str × Str)} (h : (urlencode query).isSome = true)
    {pair : Str × Str} (hpair : pair ∈ query) (name : Str)
    (hname : (quotePlus name).isSome = true) :
    ∃ qs, urlencode [(name, pair.2)] = some qs := by
  obtain ⟨qs, hqs⟩ := Option.isSome_iff_exists.1 h
  obtain ⟨pairs, hpairs, -⟩ := Option.map_eq_some_iff.1 hqs
  obtain ⟨name_value, hname_value⟩ := exists_mapM_of_mem hpairs pair hpair
  obtain ⟨first, -, hsecond⟩ := Option.bind_eq_some_iff.1 hname_value
  obtain ⟨value, hvalue, -⟩ := Option.map_eq_some_iff.1 hsecond
  obtain ⟨quoted, hquoted⟩ := Option.isSome_iff_exists.1 hname
  have hpair : encodePair (name, pair.2) = some (quoted ++ ofChar '=' :: value) := by
    rw [encodePair, hquoted, Option.bind_some, hvalue, Option.map_some]
  rw [urlencode, List.mapM_cons, hpair, List.mapM_nil]
  exact ⟨_, rfl⟩

/-- The characters of a query string. -/
theorem isQuoted_of_urlencode {query : List (Str × Str)} {qs : Str}
    (h : urlencode query = some qs) :
    ∀ c ∈ qs, c = ofChar '&' ∨ c = ofChar '=' ∨ IsQuoted c := by
  obtain ⟨pairs, hpairs, rfl⟩ := Option.map_eq_some_iff.1 h
  refine forall_mem_intercalate (.inl rfl) fun pair hpair c hc => ?_
  obtain ⟨a, -, ha⟩ := exists_of_mem_mapM hpairs pair hpair
  exact .inr (isQuoted_of_encodePair ha c hc)

end UrlEncoding
