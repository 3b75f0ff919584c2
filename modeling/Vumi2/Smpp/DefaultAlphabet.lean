import Vumi2.Smpp.Gsm0338

/-!
# The default alphabet, read back and read at all

A text that `Gsm0338Codec.encode` accepts is read back exactly when it has no `U+001B`
(`gsm0338_readBack_iff`): for that character `encode` writes the escape alone.

`Gsm0338Codec.decode` takes the octet after an escape with `next`, which raises `StopIteration` at
the end of the input. So it fails in an undocumented way exactly when an escape comes last that is
not itself the octet after an escape, that is, when the number of escapes at the end is odd
(`gsm0338_failsAsDocumented_iff`).
-/

namespace Vumi2.Smpp

open Text Codecs Decoder

/-! ## Reading back -/

/-- What starts with an escape is not read as a text that starts with `U+001B`. -/
theorem decodeFrom_escape_ne (bs : Bytes) (t : Str) :
    gsm0338Decoder.decodeFrom false (0x1B :: bs) ≠ some (escapeChar :: t) := by
  intro h
  rw [decodeFrom_cons _ (step_gsm0338_escape rfl)] at h
  cases bs with
  | nil => simp [decodeFrom_nil, gsm0338Decoder] at h
  | cons b bs =>
    rw [Option.map_eq_some_iff] at h
    obtain ⟨u, hu, hout⟩ := h
    obtain ⟨c, _, hfound, _, rfl⟩ :=
      (decodeFrom_eq_some_iff (step_gsm0338_extension b) bs).1 hu
    -- The octet after the escape stands for a character of the extension, which has no `U+001B`.
    have hc : c = escapeChar := (List.cons.inj hout).1
    exact escapeChar_notMem_extension (hc ▸ List.mem_of_getElem? hfound)

/-- A text that was encoded is read back if it has no `U+001B`, and only then. -/
theorem gsm0338Decode_encode_iff {s : Str} {bs : Bytes}
    (h : gsm0338Encode (str "strict") s = .ok bs) :
    gsm0338Decode (str "strict") bs = .ok s ↔ escapeChar ∉ s := by
  obtain ⟨rfl, hwords⟩ := gsm0338Encode_eq_ok h
  have hinit : gsm0338Decoder.init = false := rfl
  rw [gsm0338Decode_eq_ok_iff, decode]
  constructor
  · -- Up to the first `U+001B` the text comes out, but not further.
    intro hback hescape
    obtain ⟨before, after, rfl, hfirst⟩ := List.eq_append_cons_of_mem hescape
    have hgood : ∀ c ∈ before, HasGsm0338Word c := fun c hc =>
      hwords c (by simp [hc]) fun heq => hfirst (heq ▸ hc)
    have hsplit : (before ++ escapeChar :: after).flatMap gsm0338Word =
        before.flatMap gsm0338Word ++ 0x1B :: after.flatMap gsm0338Word := by
      rw [List.flatMap_append, List.flatMap_cons, gsm0338Word_escapeChar]
      rfl
    rw [hsplit, gsm0338_units.decodeFrom_words hgood, hinit, Option.map_eq_some_iff] at hback
    obtain ⟨t, ht, happend⟩ := hback
    rw [List.append_cancel_left happend] at ht
    exact decodeFrom_escape_ne _ _ ht
  · intro hescape
    have hgood : ∀ c ∈ s, HasGsm0338Word c := fun c hc =>
      hwords c hc fun heq => hescape (heq ▸ hc)
    have hread := gsm0338_units.decodeFrom_words hgood []
    rw [List.append_nil, decodeFrom_nil, gsm0338_units.done_init] at hread
    simpa using hread

/-- A text that `encode` accepts is read back exactly when it has no `U+001B`, and no two texts
without it have one encoding. -/
theorem gsm0338_readBack_iff {s : Str} {bs : Bytes}
    (h : gsm0338Encode (str "strict") s = .ok bs) :
    (gsm0338Decode (str "strict") bs = .ok s ↔ escapeChar ∉ s) ∧
      ∀ t, gsm0338Encode (str "strict") t = .ok bs → escapeChar ∉ s → escapeChar ∉ t → t = s := by
  refine ⟨gsm0338Decode_encode_iff h, fun t ht hs hescape => ?_⟩
  have hreadt := (gsm0338Decode_encode_iff ht).2 hescape
  have hreads := (gsm0338Decode_encode_iff h).2 hs
  exact Except.ok.inj (hreadt.symm.trans hreads)

/-- `gsm0338_readBack_iff` holds of a text with a character of either table. -/
theorem euro_readBack_iff :
    (gsm0338Decode (str "strict") [0x61, 0x1B, 0x65] = .ok (str "a€") ↔ escapeChar ∉ str "a€") ∧
      ∀ t, gsm0338Encode (str "strict") t = .ok [0x61, 0x1B, 0x65] → escapeChar ∉ str "a€" →
        escapeChar ∉ t → t = str "a€" :=
  gsm0338_readBack_iff (by decide +kernel)

/-- `U+001B` is accepted and not read back, and `U+001B` with an `e` is encoded as the euro sign
is. -/
theorem escape_not_readBack :
    (gsm0338Encode (str "strict") (str "\x1b") = .ok [0x1B] ∧
      gsm0338Decode (str "strict") [0x1B] ≠ .ok (str "\x1b")) ∧
      gsm0338Encode (str "strict") (str "\x1be") = gsm0338Encode (str "strict") (str "€") := by
  have hencode : gsm0338Encode (str "strict") (str "\x1b") = .ok [0x1B] := by decide +kernel
  have hdecode : gsm0338Decode (str "strict") [0x1B] = .error .stopIteration := by
    decide +kernel
  refine ⟨⟨hencode, ?_⟩, by decide +kernel⟩
  rw [hdecode]
  nofun

/-! ## Errors -/

/-- `Gsm0338Codec.decode` with the length that it returns beside the text: that of the list that
it has made, which has one item for each character. -/
def gsm0338DecodeTuple (errors : Str) (input : Bytes) : Except PyExc (Str × ℕ) :=
  (gsm0338Decode errors input).map fun result => (result, result.length)

/-- What the loop of `decode` reads in one round: an octet of the base table, or an escape and the
octet after it. -/
inductive Gsm0338Unit where
  | base (b : UInt8) (plain : b.toNat ≠ gsm0338CharsetExtensionEscape)
  | extension (b : UInt8)

namespace Gsm0338Unit

/-- The octets. -/
def octets : Gsm0338Unit → Bytes
  | base b _ => [b]
  | extension b => [UInt8.ofNat gsm0338CharsetExtensionEscape, b]

/-- What is found for them in their table. -/
def found : Gsm0338Unit → Option CodePoint
  | base b _ => gsm0338Charset[b.toNat]?
  | extension b => gsm0338CharsetExtension[b.toNat]?

end Gsm0338Unit

/-- The text shows the whole input: it is what `decode` shows for one unit after another, and the
units are all of the input. -/
def ShowsWhole (errors : Str) (input : Bytes) (text : Str) : Prop :=
  ∃ parts : List (Gsm0338Unit × Str), (parts.flatMap fun p => p.1.octets) = input ∧
    (∀ p ∈ parts, gsm0338Shown errors p.1.found = .ok p.2) ∧ text = parts.flatMap Prod.snd

/-- `decode` fails only as it should: in strict mode with a `UnicodeDecodeError`, and if it is to
ignore or replace what it cannot read, never. -/
def FailsAsDocumented (input : Bytes) : Prop :=
  ((∃ text n, gsm0338DecodeTuple (str "strict") input = .ok (text, n)) ∨
      gsm0338DecodeTuple (str "strict") input = .error .unicodeDecodeError) ∧
    ∀ errors, errors = str "ignore" ∨ errors = str "replace" →
      ∃ text n, gsm0338DecodeTuple errors input = .ok (text, n) ∧ ShowsWhole errors input text

/-- How many escapes there are at the end of an input that follows `n` escapes. -/
def escapesAfter (n : ℕ) (input : Bytes) : ℕ :=
  input.foldl (fun n b => if b.toNat = gsm0338CharsetExtensionEscape then n + 1 else 0) n

/-- How many escapes there are at the end. -/
def escapesAtEnd (input : Bytes) : ℕ := escapesAfter 0 input

/-- One round of the loop, and then the others. -/
theorem round_eq_ok_iff {shown rest : Except PyExc Str} {text : Str} :
    (do
      let shown ← shown
      let result ← rest
      .ok (shown ++ result)) = Except.ok text ↔
      ∃ a b, shown = .ok a ∧ rest = .ok b ∧ text = a ++ b := by
  cases shown with
  | error e => simp
  | ok a =>
    cases rest with
    | error e => simp
    | ok b => simp [eq_comm]

/-- Whatever `decode` returns shows the whole input. -/
theorem showsWhole_of_decode {errors : Str} {input : Bytes} {text : Str}
    (h : gsm0338Decode errors input = .ok text) : ShowsWhole errors input text := by
  induction input using gsm0338Decode.induct generalizing text with
  | case1 =>
    obtain rfl := Except.ok.inj h
    exact ⟨[], rfl, by simp, rfl⟩
  | case2 char hescape =>
    rw [gsm0338Decode, if_pos hescape] at h
    cases h
  | case3 char hescape next res ih =>
    rw [gsm0338Decode, if_pos hescape, round_eq_ok_iff] at h
    obtain ⟨a, b, ha, hb, rfl⟩ := h
    obtain ⟨parts, rfl, hparts, rfl⟩ := ih hb
    -- The escape and the octet after it are one unit.
    have hchar : char = UInt8.ofNat gsm0338CharsetExtensionEscape := by
      rw [← hescape, UInt8.ofNat_toNat]
    refine ⟨(.extension next, a) :: parts, ?_, ?_, rfl⟩
    · rw [hchar]
      rfl
    · exact List.forall_mem_cons.2 ⟨ha, hparts⟩
  | case4 char res hescape ih =>
    rw [gsm0338Decode.eq_def] at h
    dsimp only at h
    rw [if_neg hescape, round_eq_ok_iff] at h
    obtain ⟨a, b, ha, hb, rfl⟩ := h
    obtain ⟨parts, rfl, hparts, rfl⟩ := ih hb
    refine ⟨(.base char hescape, a) :: parts, rfl, ?_, rfl⟩
    exact List.forall_mem_cons.2 ⟨ha, hparts⟩

/-- The documented outcomes of `decode`. -/
def Documented (errors : Str) (outcome : Except PyExc Str) : Prop :=
  (∃ text, outcome = .ok text) ∨
    errors = str "strict" ∧ outcome = .error .unicodeDecodeError

/-- `errors` is one of the values that the codec knows. -/
def KnownErrors (errors : Str) : Prop :=
  errors = str "strict" ∨ errors = str "ignore" ∨ errors = str "replace"

/-- What the codec shows for an octet is what the handler documents. -/
theorem documented_shown {errors : Str} (herrors : KnownErrors errors) (found : Option CodePoint) :
    Documented errors (gsm0338Shown errors found) := by
  cases found with
  | some c => exact .inl ⟨_, rfl⟩
  | none =>
    unfold gsm0338Shown
    rcases herrors with rfl | rfl | rfl
    · exact .inr ⟨rfl, if_pos rfl⟩
    · exact .inl ⟨[], rfl⟩
    · exact .inl ⟨[ofChar '\uFFFD'], rfl⟩

/-- A round of the loop behaves as documented if its step and the rest do. -/
theorem documented_round {errors : Str} {shown rest : Except PyExc Str}
    (hshown : Documented errors shown) (hrest : Documented errors rest) :
    Documented errors (do
      let shown ← shown
      let result ← rest
      .ok (shown ++ result)) := by
  rcases hshown with ⟨a, rfl⟩ | ⟨hstrict, rfl⟩
  · rcases hrest with ⟨b, rfl⟩ | ⟨hstrict, rfl⟩
    · exact .inl ⟨a ++ b, rfl⟩
    · exact .inr ⟨hstrict, rfl⟩
  · exact .inr ⟨hstrict, rfl⟩

/-- The number of escapes at the end is odd. The loop of `decode` is at the start of a unit where
the number of escapes before is even. -/
def Escaped (n : ℕ) (input : Bytes) : Prop := escapesAfter n input % 2 = 1

/-- An escape in front is one escape more before the rest. -/
theorem escaped_cons_escape {n : ℕ} {b : UInt8} (h : b.toNat = gsm0338CharsetExtensionEscape)
    (input : Bytes) : Escaped n (b :: input) ↔ Escaped (n + 1) input := by
  unfold Escaped escapesAfter
  rw [List.foldl_cons, if_pos h]

/-- An octet that is no escape ends the escapes before it. -/
theorem escaped_cons_other {n : ℕ} {b : UInt8} (h : b.toNat ≠ gsm0338CharsetExtensionEscape)
    (input : Bytes) : Escaped n (b :: input) ↔ Escaped 0 input := by
  unfold Escaped escapesAfter
  rw [List.foldl_cons, if_neg h]

/-- Two rounds of the count do not change the parity. -/
theorem escaped_add_two (n : ℕ) (input : Bytes) : Escaped (n + 2) input ↔ Escaped n input := by
  cases input with
  | nil =>
    unfold Escaped escapesAfter
    rw [List.foldl_nil, List.foldl_nil, Nat.add_mod_right]
  | cons b input =>
    by_cases hb : b.toNat = gsm0338CharsetExtensionEscape
    · rw [escaped_cons_escape hb, escaped_cons_escape hb]
      exact escaped_add_two (n + 1) input
    · rw [escaped_cons_other hb, escaped_cons_other hb]

/-- An escape and the octet after it leave the count where it was, up to its parity. -/
theorem escaped_unit {b : UInt8} (h : b.toNat = gsm0338CharsetExtensionEscape) (c : UInt8)
    (input : Bytes) : Escaped 0 (b :: c :: input) ↔ Escaped 0 input := by
  rw [escaped_cons_escape h]
  by_cases hc : c.toNat = gsm0338CharsetExtensionEscape
  · rw [escaped_cons_escape hc]
    exact escaped_add_two 0 input
  · exact escaped_cons_other hc input

/-- Without an escape left over at the end, the outcome is a documented one. -/
theorem documented_of_not_escaped {errors : Str} (herrors : KnownErrors errors) {input : Bytes}
    (h : ¬ Escaped 0 input) : Documented errors (gsm0338Decode errors input) := by
  induction input using gsm0338Decode.induct with
  | case1 => exact .inl ⟨[], rfl⟩
  | case2 char hescape =>
    rw [escaped_cons_escape hescape] at h
    exact absurd rfl h
  | case3 char hescape next res ih =>
    rw [escaped_unit hescape] at h
    rw [gsm0338Decode, if_pos hescape]
    exact documented_round (documented_shown herrors _) (ih h)
  | case4 char res hescape ih =>
    rw [escaped_cons_other hescape] at h
    rw [gsm0338Decode.eq_def]
    dsimp only
    rw [if_neg hescape]
    exact documented_round (documented_shown herrors _) (ih h)

/-- With one left over, `decode` raises `StopIteration` unless it has raised before. -/
theorem stopIteration_of_escaped {errors : Str} (herrors : errors = str "ignore" ∨
    errors = str "replace") {input : Bytes} (h : Escaped 0 input) :
    gsm0338Decode errors input = .error .stopIteration := by
  -- Neither of the two handlers raises by itself.
  have hshown : ∀ found, ∃ a, gsm0338Shown errors found = .ok a := by
    intro found
    rcases documented_shown (.inr herrors) found with hok | ⟨rfl, -⟩
    · exact hok
    · rcases herrors with heq | heq
      · exact absurd heq (by decide)
      · exact absurd heq (by decide)
  induction input using gsm0338Decode.induct with
  | case1 => exact absurd h Nat.zero_ne_one
  | case2 char hescape => rw [gsm0338Decode, if_pos hescape]
  | case3 char hescape next res ih =>
    -- The extension table is read after the escape, and the recursion goes on behind both octets.
    rw [escaped_unit hescape] at h
    obtain ⟨a, ha⟩ := hshown gsm0338CharsetExtension[next.toNat]?
    rw [gsm0338Decode, if_pos hescape, ha, ok_bind, ih h, error_bind]
  | case4 char res hescape ih =>
    rw [escaped_cons_other hescape] at h
    obtain ⟨a, ha⟩ := hshown gsm0338Charset[char.toNat]?
    rw [gsm0338Decode.eq_def]
    dsimp only
    rw [if_neg hescape, ha, ok_bind, ih h, error_bind]

/-- `decode` fails only as it should exactly when the number of escapes at the end of its input is
even. -/
theorem gsm0338_failsAsDocumented_iff (input : Bytes) :
    FailsAsDocumented input ↔ escapesAtEnd input % 2 = 0 := by
  have hescaped : escapesAtEnd input % 2 = 0 ↔ ¬ Escaped 0 input := by
    show _ ↔ ¬ escapesAtEnd input % 2 = 1
    omega
  rw [hescaped]
  constructor
  · -- A handler that would show every octet still meets the end of the input.
    rintro ⟨-, h⟩ hodd
    obtain ⟨text, n, htuple, -⟩ := h (str "replace") (.inr rfl)
    unfold gsm0338DecodeTuple at htuple
    rw [stopIteration_of_escaped (.inr rfl) hodd] at htuple
    cases htuple
  · intro h
    constructor
    · unfold gsm0338DecodeTuple
      rcases documented_of_not_escaped (.inl rfl) h with ⟨text, htext⟩ | ⟨-, herror⟩
      · rw [htext]
        exact .inl ⟨text, _, rfl⟩
      · rw [herror]
        exact .inr rfl
    · intro errors herrors
      unfold gsm0338DecodeTuple
      rcases documented_of_not_escaped (.inr herrors) h with ⟨text, htext⟩ | ⟨rfl, -⟩
      · rw [htext]
        exact ⟨text, _, rfl, showsWhole_of_decode htext⟩
      · rcases herrors with heq | heq
        · exact absurd heq (by decide)
        · exact absurd heq (by decide)

/-- An escape alone raises `StopIteration`, in strict mode too. -/
theorem lone_escape_undocumented :
    ¬ FailsAsDocumented [0x1B] ∧
      gsm0338DecodeTuple (str "strict") [0x1B] = .error .stopIteration := by
  have hstrict : gsm0338DecodeTuple (str "strict") [0x1B] = .error .stopIteration := rfl
  refine ⟨?_, hstrict⟩
  rintro ⟨⟨text, n, hok⟩ | herror, -⟩
  · rw [hstrict] at hok
    cases hok
  · rw [hstrict] at herror
    cases herror

end Vumi2.Smpp
