import Vumi2.Smpp.Codecs

/-!
# GSM 03.38 as a code

Each character has a word: the octet of its position in the base table, or an escape and the octet
of its position in the extension. Only `U+001B` has no word of its own, since its position in the
base table is the escape: it is encoded as an escape that the decoder takes for the start of another
character. So a text survives being cut exactly when it has no `U+001B` and no cut falls between an
escape and its octet (`gsm0338_restarting_iff`).
-/

namespace Vumi2.Smpp

open Text Codecs Decoder

/-- `U+001B`. -/
def escapeChar : CodePoint := ofChar '\x1b'

/-- `Gsm0338Codec.decode` in strict mode, as a machine: its state is whether an escape came last. -/
def gsm0338Decoder : Decoder Bool UInt8 CodePoint where
  init := false
  step
    | false, b =>
      if b.toNat = gsm0338CharsetExtensionEscape then some (true, [])
      else gsm0338Charset[b.toNat]?.map fun c => (false, [c])
    | true, b => gsm0338CharsetExtension[b.toNat]?.map fun c => (false, [c])
  done escaped := !escaped

/-- The escape is kept until the next octet. -/
theorem step_gsm0338_escape {b : UInt8} (h : b.toNat = gsm0338CharsetExtensionEscape) :
    gsm0338Decoder.step false b = some (true, []) := if_pos h

/-- An octet of the base table is a character of it. -/
theorem step_gsm0338_base {b : UInt8} (h : b.toNat ≠ gsm0338CharsetExtensionEscape) :
    gsm0338Decoder.step false b = gsm0338Charset[b.toNat]?.map fun c => (false, [c]) := if_neg h

/-- An octet after an escape is a character of the extension. -/
theorem step_gsm0338_extension (b : UInt8) :
    gsm0338Decoder.step true b =
      gsm0338CharsetExtension[b.toNat]?.map fun c => (false, [c]) := rfl

/-- What is shown for a table position, and then the rest of the text. -/
theorem shown_eq_ok_iff {found : Option CodePoint} {rest : Except PyExc Str} {s : Str} :
    (do
      let shown ← gsm0338Shown (str "strict") found
      let result ← rest
      .ok (shown ++ result)) = .ok s ↔ ∃ c t, found = some c ∧ rest = .ok t ∧ s = c :: t := by
  cases found with
  | none => simp [gsm0338Shown]
  | some c =>
    cases rest with
    | error e => simp [gsm0338Shown]
    | ok t => simp [gsm0338Shown, eq_comm]

/-- A step that puts out one character, and then the rest of the text. -/
theorem decodeFrom_eq_some_iff {q : Bool} {b : UInt8} {found : Option CodePoint}
    (h : gsm0338Decoder.step q b = found.map fun c => (false, [c])) (bs : Bytes) {s : Str} :
    gsm0338Decoder.decodeFrom q (b :: bs) = some s ↔
      ∃ c t, found = some c ∧ gsm0338Decoder.decodeFrom false bs = some t ∧ s = c :: t := by
  cases found with
  | none =>
    rw [decodeFrom_cons_none _ h]
    simp
  | some c =>
    rw [decodeFrom_cons _ h, Option.map_eq_some_iff]
    simp [eq_comm]

/-- The machine decodes what `Gsm0338Codec.decode` does. -/
theorem gsm0338Decode_eq_ok_iff (bs : Bytes) (s : Str) :
    gsm0338Decode (str "strict") bs = .ok s ↔ gsm0338Decoder.decode bs = some s := by
  have hinit : gsm0338Decoder.init = false := rfl
  rw [decode, hinit]
  -- Induction along the recursion of `decode`, which takes an escape together with its octet.
  induction bs using gsm0338Decode.induct generalizing s with
  | case1 => simp [gsm0338Decode, decodeFrom_nil, gsm0338Decoder]
  | case2 char hescape =>
    rw [gsm0338Decode, if_pos hescape, decodeFrom_cons _ (step_gsm0338_escape hescape),
      decodeFrom_nil]
    simp [gsm0338Decoder]
  | case3 char hescape next res ih =>
    have hdecode : gsm0338Decoder.decodeFrom false (char :: next :: res) =
        gsm0338Decoder.decodeFrom true (next :: res) := by
      rw [decodeFrom_cons _ (step_gsm0338_escape hescape)]
      simp
    rw [gsm0338Decode, if_pos hescape, hdecode, shown_eq_ok_iff,
      decodeFrom_eq_some_iff (step_gsm0338_extension next)]
    simp only [ih]
  | case4 char res hescape ih =>
    rw [gsm0338Decode.eq_def]
    dsimp only
    rw [if_neg hescape, shown_eq_ok_iff, decodeFrom_eq_some_iff (step_gsm0338_base hescape)]
    simp only [ih]

/-! ## Words -/

/-- The octets of a character, or none at all. -/
def gsm0338Word (c : CodePoint) : Bytes :=
  (gsm0338Octets (str "strict") (gsm0338CharsetMap c) (gsm0338CharsetExtensionMap c)).toOption.getD
    []

/-- A character that has a word of its own. -/
def HasGsm0338Word (c : CodePoint) : Prop :=
  c ≠ escapeChar ∧ (gsm0338CharsetMap c ≠ none ∨ gsm0338CharsetExtensionMap c ≠ none)

/-- The octet of a character is its place in the table. -/
theorem charsetMap_eq_some {table : Str} {c : CodePoint} {i : ℕ} (h : charsetMap table c = some i) :
    i < table.length ∧ table[i]? = some c := by
  have hmem := List.mem_of_find?_eq_some h
  have hget := List.find?_some h
  exact ⟨List.mem_range.1 (List.mem_reverse.1 hmem), by simpa using hget⟩

/-- The base table has 128 places. -/
theorem length_gsm0338Charset : gsm0338Charset.length = 128 := by decide +kernel

/-- The extension has 128 places. -/
theorem length_gsm0338CharsetExtension : gsm0338CharsetExtension.length = 128 := by decide +kernel

/-- The position of the escape in the base table is that of `U+001B`. -/
theorem gsm0338Charset_escape :
    gsm0338Charset[gsm0338CharsetExtensionEscape]? = some escapeChar := by decide

/-- The escape is none of the characters of the extension. -/
theorem escapeChar_notMem_extension : escapeChar ∉ gsm0338CharsetExtension := by decide

/-- An octet below 128 has the number that it is made of. -/
theorem toNat_ofNat_of_lt {i : ℕ} (h : i < 128) : (UInt8.ofNat i).toNat = i := by
  rw [UInt8.toNat_ofNat']
  exact Nat.mod_eq_of_lt (by omega)

/-- A word is an octet of the base table that is not the escape, or an escape and an octet of the
extension. -/
theorem gsm0338Word_cases {c : CodePoint} (h : HasGsm0338Word c) :
    (∃ b : UInt8, gsm0338Word c = [b] ∧ b.toNat ≠ gsm0338CharsetExtensionEscape ∧
      gsm0338Charset[b.toNat]? = some c) ∨
    ∃ e b : UInt8, gsm0338Word c = [e, b] ∧ e.toNat = gsm0338CharsetExtensionEscape ∧
      gsm0338CharsetExtension[b.toNat]? = some c := by
  obtain ⟨hne, hsome⟩ := h
  cases hbase : gsm0338CharsetMap c with
  | some i =>
    obtain ⟨hlt, hget⟩ := charsetMap_eq_some hbase
    have hi : (UInt8.ofNat i).toNat = i := toNat_ofNat_of_lt (length_gsm0338Charset ▸ hlt)
    refine .inl ⟨UInt8.ofNat i, ?_, ?_, by rw [hi, hget]⟩
    · rw [gsm0338Word, hbase]
      rfl
    · rw [hi]
      rintro rfl
      -- The base table has the escape itself, which is excluded.
      rw [gsm0338Charset_escape, Option.some.injEq] at hget
      exact hne hget.symm
  | none =>
    cases hextension : gsm0338CharsetExtensionMap c with
    | some i =>
      obtain ⟨hlt, hget⟩ := charsetMap_eq_some hextension
      have hi : (UInt8.ofNat i).toNat = i :=
        toNat_ofNat_of_lt (length_gsm0338CharsetExtension ▸ hlt)
      refine .inr ⟨UInt8.ofNat gsm0338CharsetExtensionEscape, UInt8.ofNat i, ?_, rfl,
        by rw [hi, hget]⟩
      rw [gsm0338Word, hbase, hextension]
      rfl
    | none =>
      rcases hsome with h | h
      · exact absurd hbase h
      · exact absurd hextension h

/-- The words are a code for the decoder: an escape waits for its octet. -/
theorem gsm0338_units : gsm0338Decoder.Units gsm0338Word HasGsm0338Word where
  done_init := rfl
  whole c hc := by
    have hinit : gsm0338Decoder.init = false := rfl
    rcases gsm0338Word_cases hc with ⟨b, hword, hb, hget⟩ | ⟨e, b, hword, he, hget⟩
    · have hstep : gsm0338Decoder.step false b = some (false, [c]) := by
        rw [step_gsm0338_base hb, hget]
        rfl
      simp only [hword, hinit, feed, hstep, List.append_nil]
    · have hstep : gsm0338Decoder.step true b = some (false, [c]) := by
        rw [step_gsm0338_extension, hget]
        rfl
      simp only [hword, hinit, feed, step_gsm0338_escape he, hstep, List.nil_append,
        List.append_nil]
  inside c hc p s hps hp hs := by
    obtain ⟨a, p, rfl⟩ := List.exists_cons_of_ne_nil hp
    obtain ⟨z, s, rfl⟩ := List.exists_cons_of_ne_nil hs
    rcases gsm0338Word_cases hc with ⟨b, hword, _, _⟩ | ⟨e, b, hword, he, _⟩
    · -- A word of one octet has nothing inside.
      have hlength := congrArg List.length (hword.symm.trans hps)
      simp only [List.length_append, List.length_cons, List.length_nil] at hlength
      omega
    · -- The inside of the other word is the escape, behind which the decoder waits.
      have heq := hword.symm.trans hps
      rw [List.cons_append, List.cons.injEq] at heq
      obtain ⟨rfl, hrest⟩ := heq
      have hlength := congrArg List.length hrest
      simp only [List.length_append, List.length_cons, List.length_nil] at hlength
      obtain rfl : p = [] := List.eq_nil_of_length_eq_zero (by omega)
      exact ⟨true, by simp only [feed, show gsm0338Decoder.init = false from rfl,
        step_gsm0338_escape he, List.append_nil], rfl⟩

/-- A text that can be encoded is the words of its characters. -/
theorem gsm0338Encode_eq_ok {s : Str} {bs : Bytes} (h : gsm0338Encode (str "strict") s = .ok bs) :
    bs = s.flatMap gsm0338Word ∧ ∀ c ∈ s, c ≠ escapeChar → HasGsm0338Word c := by
  induction s generalizing bs with
  | nil =>
    cases h
    exact ⟨rfl, by simp⟩
  | cons c s ih =>
    rw [gsm0338Encode] at h
    obtain ⟨octets, hoctets, h⟩ := bind_eq_ok.1 h
    obtain ⟨rest, hrest, h⟩ := bind_eq_ok.1 h
    cases h
    obtain ⟨rfl, hwords⟩ := ih hrest
    refine ⟨?_, fun d hd hne => ?_⟩
    · rw [List.flatMap_cons, gsm0338Word, hoctets]
      rfl
    · rcases List.mem_cons.1 hd with rfl | hd
      · refine ⟨hne, ?_⟩
        -- A character of neither table is refused.
        by_contra hnone
        rw [not_or, not_not, not_not] at hnone
        rw [hnone.1, hnone.2, gsm0338Octets, if_pos rfl] at hoctets
        cases hoctets
      · exact hwords d hd hne

/-- A character of a table has an octet. -/
theorem charsetMap_ne_none {table : Str} {i : ℕ} {c : CodePoint} (h : table[i]? = some c) :
    charsetMap table c ≠ none := by
  obtain ⟨hi, _⟩ := List.getElem?_eq_some_iff.1 h
  intro hnone
  have hno := List.find?_eq_none.1 hnone i (List.mem_reverse.2 (List.mem_range.2 hi))
  exact hno (decide_eq_true h)

/-- A character is written as two octets at most. -/
theorem length_gsm0338Word_le (c : CodePoint) : (gsm0338Word c).length ≤ 2 := by
  rw [gsm0338Word]
  cases gsm0338CharsetMap c with
  | some i => exact Nat.le_succ 1
  | none =>
    cases gsm0338CharsetExtensionMap c with
    | some i => exact Nat.le_refl 2
    | none => exact Nat.zero_le 2

/-- A character of the base table has one octet, also if the extension has it too. -/
theorem length_gsm0338Word_base {i : ℕ} {c : CodePoint} (h : gsm0338Charset[i]? = some c) :
    (gsm0338Word c).length = 1 := by
  rw [gsm0338Word]
  cases hbase : gsm0338CharsetMap c with
  | some i => rfl
  | none => exact absurd hbase (charsetMap_ne_none h)

/-- Encoding what was decoded takes no more octets. -/
theorem length_flatMap_gsm0338Word_le {bs : Bytes} {s : Str}
    (h : gsm0338Decode (str "strict") bs = .ok s) :
    (s.flatMap gsm0338Word).length ≤ bs.length := by
  induction bs using gsm0338Decode.induct generalizing s with
  | case1 =>
    cases h
    exact Nat.le_refl 0
  | case2 char hescape =>
    rw [gsm0338Decode, if_pos hescape] at h
    cases h
  | case3 char hescape next res ih =>
    -- An escape and an octet are one character, whose word has two octets at most.
    rw [gsm0338Decode, if_pos hescape, shown_eq_ok_iff] at h
    obtain ⟨c, t, _, ht, rfl⟩ := h
    have hword := length_gsm0338Word_le c
    have hrest := ih ht
    rw [List.flatMap_cons, List.length_append]
    simp only [List.length_cons]
    omega
  | case4 char res hescape ih =>
    rw [gsm0338Decode.eq_def] at h
    dsimp only at h
    rw [if_neg hescape, shown_eq_ok_iff] at h
    obtain ⟨c, t, hc, ht, rfl⟩ := h
    have hword := length_gsm0338Word_base hc
    have hrest := ih ht
    rw [List.flatMap_cons, List.length_append]
    simp only [List.length_cons]
    omega

/-- The escape is written as itself. -/
theorem gsm0338Word_escapeChar : gsm0338Word escapeChar = [0x1B] := by decide +kernel

/-- After an escape, the first character that comes out is one of the extension. -/
theorem head_after_escape {size k : ℕ} (hs : 0 < size) (hk : k ≤ size) {bs : Bytes} {c : CodePoint}
    {t : Str} (h : (gsm0338Decoder.restarting size).decodeFrom (k, true) bs = some (c :: t)) :
    c ∈ gsm0338CharsetExtension := by
  cases bs with
  | nil => simp [decodeFrom_nil, restarting, gsm0338Decoder] at h
  | cons b bs =>
    by_cases hlt : k < size
    · cases hget : gsm0338CharsetExtension[b.toNat]? with
      | none =>
        have hstep : gsm0338Decoder.step true b = none := by
          rw [step_gsm0338_extension, hget]
          rfl
        rw [decodeFrom_restarting_lt_none _ hlt hstep] at h
        cases h
      | some d =>
        have hstep : gsm0338Decoder.step true b = some (false, [d]) := by
          rw [step_gsm0338_extension, hget]
          rfl
        rw [decodeFrom_restarting_lt _ hlt hstep] at h
        obtain ⟨u, _, hu⟩ := Option.map_eq_some_iff.1 h
        have hd : d = c := (List.cons.inj hu).1
        rw [← hd]
        exact List.mem_of_getElem? hget
    · -- A cut between the escape and its octet.
      obtain rfl : k = size := by omega
      rw [decodeFrom_restarting_at _ hs (List.cons_ne_nil b bs)] at h
      simp [gsm0338Decoder] at h

/-- Nor does a rest of a text that starts with a `U+001B` come out. -/
theorem decodeFrom_escapeChar {size k : ℕ} (hs : 0 < size) (hk : k ≤ size) (bs : Bytes) (t : Str) :
    (gsm0338Decoder.restarting size).decodeFrom (k, false) (0x1B :: bs) ≠
      some (escapeChar :: t) := by
  have hlt : ∀ k < size, (gsm0338Decoder.restarting size).decodeFrom (k, false) (0x1B :: bs) ≠
      some (escapeChar :: t) := by
    intro k hk h
    rw [decodeFrom_restarting_lt _ hk (step_gsm0338_escape rfl)] at h
    simp only [List.nil_append, Option.map_id'] at h
    exact escapeChar_notMem_extension (head_after_escape hs (by omega) h)
  by_cases hfull : k < size
  · exact hlt k hfull
  · obtain rfl : k = size := by omega
    have hdone : gsm0338Decoder.done false = true := rfl
    rw [decodeFrom_restarting_at _ hs (List.cons_ne_nil _ bs), if_pos hdone]
    exact hlt 0 hs

/-- A text that was encoded survives being cut after every `size` octets exactly when it has no
`U+001B` and no cut falls inside a word. -/
theorem gsm0338_restarting_iff {size : ℕ} (hs : 0 < size) {s : Str} {bs : Bytes}
    (h : gsm0338Encode (str "strict") s = .ok bs) :
    (gsm0338Decoder.restarting size).decode bs = some s ↔
      escapeChar ∉ s ∧ NoneCut size gsm0338Word 0 s := by
  obtain ⟨rfl, hwords⟩ := gsm0338Encode_eq_ok h
  by_cases hescape : escapeChar ∈ s
  · -- Up to the first `U+001B` the text may come out, but not further.
    obtain ⟨before, after, rfl, hfirst⟩ := List.eq_append_cons_of_mem hescape
    have hgood : ∀ c ∈ before, HasGsm0338Word c := fun c hc =>
      hwords c (by simp [hc]) fun heq => hfirst (heq ▸ hc)
    obtain ⟨k, hk, hrest⟩ := gsm0338_units.decodeFrom_append hs before 0 (Nat.zero_le _) hgood
    have hsplit : (before ++ escapeChar :: after).flatMap gsm0338Word =
        before.flatMap gsm0338Word ++ 0x1B :: after.flatMap gsm0338Word := by
      rw [List.flatMap_append, List.flatMap_cons, gsm0338Word_escapeChar]
      rfl
    simp only [hescape, not_true_eq_false, false_and, iff_false]
    rw [hsplit, decode, show (gsm0338Decoder.restarting size).init = (0, false) from rfl]
    have hdecode := hrest (0x1B :: after.flatMap gsm0338Word)
    rw [show gsm0338Decoder.init = false from rfl] at hdecode
    rw [hdecode]
    split_ifs
    · intro heq
      obtain ⟨t, ht, happend⟩ := Option.map_eq_some_iff.1 heq
      rw [List.append_cancel_left happend] at ht
      exact decodeFrom_escapeChar hs hk _ _ ht
    · simp
  · have hgood : ∀ c ∈ s, HasGsm0338Word c := fun c hc =>
      hwords c hc fun heq => hescape (heq ▸ hc)
    rw [gsm0338_units.decodeFrom_units hs hgood]
    simp [hescape]

end Vumi2.Smpp
