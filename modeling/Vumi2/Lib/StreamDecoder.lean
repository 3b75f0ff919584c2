import Vumi2.Lib.Chunks

/-!
# Decoders as state machines, and decoding in chunks

A `Decoder` reads one input symbol at a time, puts out some output symbols, and says in which states
the input may end. `D.restarting size` is the decoder that starts afresh after every `size` symbols,
and refuses where `D` could not have ended there. `decode_chunks` shows that it is what decoding
every chunk on its own and joining the results comes to. So whether a text survives being cut up is
a question about one run of one machine.

`Units` describes the codes in which every symbol has its own non-empty word, the decoder is back at
its start after each word, and cannot end inside one. For them the answer is `decodeFrom_units`: a
text survives exactly when no cut falls inside a word (`NoneCut`).
-/

/-- A decoder from symbols `β` to symbols `α` that keeps a `σ` between symbols. -/
structure Decoder (σ β α : Type) where
  /-- The state at the start. -/
  init : σ
  /-- The state after a symbol and what it puts out, or `none` for a refusal. -/
  step : σ → β → Option (σ × List α)
  /-- Whether the input may end. -/
  done : σ → Bool

namespace Decoder

open Chunks

variable {σ β α : Type} (D : Decoder σ β α)

/-- The state after a list of symbols, and all that they put out. -/
def feed (q : σ) : List β → Option (σ × List α)
  | [] => some (q, [])
  | b :: bs =>
    match D.step q b with
    | none => none
    | some (q', out) =>
      match feed q' bs with
      | none => none
      | some (q'', out') => some (q'', out ++ out')

/-- Decodes a whole input from a state. -/
def decodeFrom (q : σ) (bs : List β) : Option (List α) :=
  match D.feed q bs with
  | none => none
  | some (q', out) => if D.done q' then some out else none

/-- Decodes a whole input. -/
def decode (bs : List β) : Option (List α) := D.decodeFrom D.init bs

/-- Nothing is done with nothing. -/
@[simp] theorem feed_nil (q : σ) : D.feed q [] = some (q, []) := rfl

/-- Two parts are fed one after the other. -/
theorem feed_append (q : σ) (bs cs : List β) :
    D.feed q (bs ++ cs) =
      match D.feed q bs with
      | none => none
      | some (q', out) =>
        match D.feed q' cs with
        | none => none
        | some (q'', out') => some (q'', out ++ out') := by
  induction bs generalizing q with
  | nil =>
    simp only [List.nil_append, feed_nil]
    cases D.feed q cs with
    | none => rfl
    | some r => rfl
  | cons b bs ih =>
    simp only [List.cons_append, feed]
    -- What fails in the first part fails as a whole; otherwise the state is passed on.
    cases D.step q b with
    | none => rfl
    | some r =>
      simp only [ih r.1]
      cases D.feed r.1 bs with
      | none => rfl
      | some r' =>
        dsimp only
        cases D.feed r'.1 cs with
        | none => rfl
        | some r'' => simp

/-- The first symbol is fed, and then the rest. -/
theorem feed_cons {D : Decoder σ β α} {q q' q'' : σ} {b : β} {bs : List β} {out out' : List α}
    (h : D.step q b = some (q', out)) (hbs : D.feed q' bs = some (q'', out')) :
    D.feed q (b :: bs) = some (q'', out ++ out') := by
  rw [feed, h]
  dsimp only
  rw [hbs]

/-- A symbol that only changes the state. -/
theorem feed_silent {D : Decoder σ β α} {q q' : σ} {b : β} (h : D.step q b = some (q', []))
    (bs : List β) : D.feed q (b :: bs) = D.feed q' bs := by
  rw [feed, h]
  dsimp only
  cases D.feed q' bs with
  | none => rfl
  | some r => rfl

/-- Parts that are taken in are so one after the other. -/
theorem feed_trans {D : Decoder σ β α} {q q' q'' : σ} {bs cs : List β} {out out' : List α}
    (hbs : D.feed q bs = some (q', out)) (hcs : D.feed q' cs = some (q'', out')) :
    D.feed q (bs ++ cs) = some (q'', out ++ out') := by
  rw [feed_append, hbs]
  dsimp only
  rw [hcs]

/-- From `q` the decoder gets over `bs` to `q'` if `p` holds, and refuses it otherwise. -/
def GetsOver (q : σ) (bs : List β) (p : Bool) (q' : σ) (out : List α) : Prop :=
  D.feed q bs = if p = true then some (q', out) else none

/-- What is taken in is got over, in any case. -/
theorem GetsOver.of_feed {D : Decoder σ β α} {q q' : σ} {bs : List β} {out : List α}
    (h : D.feed q bs = some (q', out)) : D.GetsOver q bs true q' out := h

/-- Parts are got over one after the other, if each is. -/
theorem GetsOver.trans {D : Decoder σ β α} {q q' q'' : σ} {bs cs : List β} {p p' : Bool}
    {out out' : List α} (hbs : D.GetsOver q bs p q' out) (hcs : D.GetsOver q' cs p' q'' out') :
    D.GetsOver q (bs ++ cs) (p && p') q'' (out ++ out') := by
  unfold GetsOver at *
  rw [feed_append, hbs]
  cases p with
  | false => rfl
  | true =>
    rw [if_pos rfl]
    dsimp only
    rw [hcs]
    cases p' with
    | false => rfl
    | true => rfl

/-- Words that each lead back to the state before. -/
theorem GetsOver.flatMap {D : Decoder σ β α} {γ : Type} {q : σ} {word : γ → List β} {p : γ → Bool}
    {out : γ → List α} (h : ∀ c, D.GetsOver q (word c) (p c) q (out c)) (s : List γ) :
    D.GetsOver q (s.flatMap word) (s.all p) q (s.flatMap out) := by
  induction s with
  | nil => exact .of_feed rfl
  | cons c s ih => exact (h c).trans ih

/-- What is got over to the end is decoded. -/
theorem GetsOver.decode {D : Decoder σ β α} {q : σ} {bs : List β} {p : Bool} {out : List α}
    (h : D.GetsOver D.init bs p q out) (hdone : D.done q = true) :
    D.decode bs = if p = true then some out else none := by
  unfold GetsOver at h
  rw [Decoder.decode, decodeFrom, h]
  cases p with
  | false => rfl
  | true => exact if_pos hdone

/-- A first part is taken in, and the rest is decoded from there. -/
theorem decodeFrom_append (q : σ) (bs cs : List β) :
    D.decodeFrom q (bs ++ cs) =
      match D.feed q bs with
      | none => none
      | some (q', out) => (D.decodeFrom q' cs).map (out ++ ·) := by
  rw [decodeFrom, feed_append]
  cases D.feed q bs with
  | none => rfl
  | some r =>
    simp only [decodeFrom]
    cases D.feed r.1 cs with
    | none => rfl
    | some r' =>
      dsimp only
      split_ifs
      · rfl
      · rfl

/-- The decoder is done with nothing if it may end where it is. -/
theorem decodeFrom_nil (q : σ) : D.decodeFrom q [] = if D.done q then some [] else none := rfl

/-- The first symbol is taken in, and the rest is decoded from there. -/
theorem decodeFrom_cons {q q' : σ} {b : β} {out : List α} (h : D.step q b = some (q', out))
    (bs : List β) : D.decodeFrom q (b :: bs) = (D.decodeFrom q' bs).map (out ++ ·) := by
  simp only [decodeFrom, feed, h]
  cases D.feed q' bs with
  | none => rfl
  | some r =>
    dsimp only
    split_ifs
    · rfl
    · rfl

/-- A symbol that is refused decodes to nothing. -/
theorem decodeFrom_cons_none {q : σ} {b : β} (h : D.step q b = none) (bs : List β) :
    D.decodeFrom q (b :: bs) = none := by
  simp only [decodeFrom, feed, h]

/-- `D`, started afresh after every `size` symbols. The state counts the symbols since the last
start. -/
def restarting (size : ℕ) : Decoder (ℕ × σ) β α where
  init := (0, D.init)
  step := fun (k, q) b =>
    if k < size then (D.step q b).map fun r => ((k + 1, r.1), r.2)
    else if D.done q then (D.step D.init b).map fun r => ((1, r.1), r.2)
    else none
  done := fun (_, q) => D.done q

variable (size : ℕ)

/-- Up to the next start, the restarting decoder is the decoder. -/
theorem feed_restarting_of_le (bs : List β) : ∀ (k : ℕ) (q : σ), k + bs.length ≤ size →
    (D.restarting size).feed (k, q) bs =
      (D.feed q bs).map fun r => ((k + bs.length, r.1), r.2) := by
  induction bs with
  | nil =>
    intro k q _
    rfl
  | cons b bs ih =>
    intro k q hle
    simp only [List.length_cons] at hle
    have hk : k < size := by omega
    simp only [feed, restarting, if_pos hk]
    cases hstep : D.step q b with
    | none => rfl
    | some r =>
      -- The count goes up with every symbol.
      have := ih (k + 1) r.1 (by omega)
      simp only [restarting] at this
      simp only [Option.map_some, this, List.length_cons]
      cases D.feed r.1 bs with
      | none => rfl
      | some r' => simp [Nat.add_comm, Nat.add_left_comm]

/-- At a start, a non-empty rest is decoded afresh, if the decoder could have ended here. -/
theorem feed_restarting_at {size : ℕ} (hs : 0 < size) {bs : List β} (hne : bs ≠ []) (q : σ) :
    (D.restarting size).feed (size, q) bs =
      if D.done q then (D.restarting size).feed (0, D.init) bs else none := by
  obtain ⟨b, bs, rfl⟩ := List.exists_cons_of_ne_nil hne
  by_cases hq : D.done q = true
  · rw [if_pos hq]
    simp only [feed, restarting, lt_irrefl, if_false, hq, if_true, hs, Nat.zero_add]
  · rw [if_neg hq]
    simp only [feed, restarting, lt_irrefl, if_false, hq]
    rfl

/-- Before a chunk is full, the restarting decoder takes the decoder's step. -/
theorem decodeFrom_restarting_lt {size k : ℕ} (hk : k < size) {q q' : σ} {b : β} {out : List α}
    (h : D.step q b = some (q', out)) (bs : List β) :
    (D.restarting size).decodeFrom (k, q) (b :: bs) =
      ((D.restarting size).decodeFrom (k + 1, q') bs).map (out ++ ·) := by
  apply decodeFrom_cons
  simp only [restarting, if_pos hk, h, Option.map_some]

/-- Nor does it inside a chunk of a decoder that starts anew with each. -/
theorem decodeFrom_restarting_lt_none {size k : ℕ} (hk : k < size) {q : σ} {b : β}
    (h : D.step q b = none) (bs : List β) :
    (D.restarting size).decodeFrom (k, q) (b :: bs) = none := by
  apply decodeFrom_cons_none
  simp only [restarting, if_pos hk, h, Option.map_none]

/-- `feed_restarting_at` for a whole rest of the input. -/
theorem decodeFrom_restarting_at {size : ℕ} (hs : 0 < size) {bs : List β} (hne : bs ≠ []) (q : σ) :
    (D.restarting size).decodeFrom (size, q) bs =
      if D.done q then (D.restarting size).decodeFrom (0, D.init) bs else none := by
  rw [decodeFrom, D.feed_restarting_at hs hne]
  split_ifs
  · rfl
  · rfl

/-- Decoding each chunk on its own and joining the results is decoding with restarts. -/
theorem decode_chunks {size : ℕ} (hs : 0 < size) (hinit : D.done D.init = true) (bs : List β) :
    ((chunks size bs).mapM D.decode).map List.flatten = (D.restarting size).decode bs := by
  induction bs using chunks_induction hs with
  | nil =>
    rw [chunks_nil hs]
    simp [decode, decodeFrom, restarting, hinit]
  | last l hne hle =>
    -- The whole input is one chunk.
    have hone : (D.restarting size).decode l = D.decode l := by
      simp only [decode, decodeFrom]
      rw [show (D.restarting size).init = (0, D.init) from rfl,
        D.feed_restarting_of_le size l 0 D.init (by omega)]
      cases D.feed D.init l with
      | none => rfl
      | some r => rfl
    rw [chunks_of_le hne hle, hone, List.mapM_cons]
    cases D.decode l with
    | none => rfl
    | some out => simp
  | more l hlt ih =>
    have hdrop : l.drop size ≠ [] := by
      intro h
      have := congrArg List.length h
      rw [List.length_drop, List.length_nil] at this
      omega
    have htake : (l.take size).length = size := by rw [List.length_take]; omega
    -- The first chunk is decoded, and then the rest afresh.
    have hsplit : (D.restarting size).decode l =
        match D.decode (l.take size) with
        | none => none
        | some out => ((D.restarting size).decode (l.drop size)).map (out ++ ·) := by
      conv_lhs => rw [← List.take_append_drop size l]
      rw [decode, decodeFrom_append]
      have hfeed := D.feed_restarting_of_le size (l.take size) 0 D.init (by omega)
      rw [show (D.restarting size).init = (0, D.init) from rfl, hfeed]
      simp only [decode, decodeFrom]
      cases hl : D.feed D.init (l.take size) with
      | none => rfl
      | some r =>
        simp only [Option.map_some, Nat.zero_add, htake]
        rw [D.feed_restarting_at hs hdrop r.1]
        by_cases hd : D.done r.1 = true
        · simp only [if_pos hd]
          rfl
        · simp only [if_neg hd]
          rfl
    rw [chunks_of_lt hs hlt, hsplit, ← ih, List.mapM_cons]
    cases D.decode (l.take size) with
    | none => rfl
    | some out =>
      cases (chunks size (l.drop size)).mapM D.decode with
      | none => rfl
      | some outs => rfl

/-! ## Codes with a word for each symbol -/

/-- The position in its chunk at which a symbol is read that comes after `k` symbols of a chunk. -/
def offset (k : ℕ) : ℕ := if k < size then k else 0

/-- A non-empty input at the end of a chunk is read from the start of the next one. -/
theorem feed_restarting_offset {size : ℕ} (hs : 0 < size) {k : ℕ} (hk : k ≤ size) {bs : List β}
    (hne : bs ≠ []) (hinit : D.done D.init = true) :
    (D.restarting size).feed (k, D.init) bs =
      (D.restarting size).feed (offset size k, D.init) bs := by
  rw [offset]
  split_ifs with hlt
  · rfl
  · rw [show k = size by omega, D.feed_restarting_at hs hne, if_pos hinit]

/-- No cut falls inside the word of a symbol, when the first symbol comes after `k` symbols of a
chunk. -/
def NoneCut (enc : α → List β) : ℕ → List α → Prop
  | _, [] => True
  | k, a :: as =>
    offset size k + (enc a).length ≤ size ∧ NoneCut enc (offset size k + (enc a).length) as

instance decidableNoneCut (enc : α → List β) : ∀ k as, Decidable (NoneCut size enc k as)
  | _, [] => .isTrue trivial
  | k, a :: as =>
    have := decidableNoneCut enc (offset size k + (enc a).length) as
    inferInstanceAs (Decidable (_ ∧ _))

/-- The words `enc a` of the symbols that satisfy `good` are a code for the decoder. -/
structure Units (enc : α → List β) (good : α → Prop) : Prop where
  /-- The input may end at the start. -/
  done_init : D.done D.init = true
  /-- A word puts out its symbol and ends at the start. -/
  whole : ∀ a, good a → D.feed D.init (enc a) = some (D.init, [a])
  /-- The input may not end inside a word. -/
  inside : ∀ a, good a → ∀ p s, enc a = p ++ s → p ≠ [] → s ≠ [] →
    ∃ q, D.feed D.init p = some (q, []) ∧ D.done q = false

variable {D} {enc : α → List β} {good : α → Prop}

/-- The word of a good symbol is not empty. -/
theorem Units.word_ne_nil (hU : D.Units enc good) {a : α} (ha : good a) : enc a ≠ [] := by
  intro hnil
  have := hU.whole a ha
  rw [hnil, feed_nil] at this
  simp at this

/-- Words put out their symbols, and what follows is read from the start. -/
theorem Units.decodeFrom_words (hU : D.Units enc good) {as : List α} (hgood : ∀ a ∈ as, good a)
    (rest : List β) :
    D.decodeFrom D.init (as.flatMap enc ++ rest) = (D.decodeFrom D.init rest).map (as ++ ·) := by
  induction as with
  | nil => simp
  | cons a as ih =>
    have ha : good a := hgood a List.mem_cons_self
    have has := ih fun b hb => hgood b (List.mem_cons_of_mem _ hb)
    rw [List.flatMap_cons, List.append_assoc, decodeFrom_append, hU.whole a ha]
    dsimp only
    rw [has, Option.map_map]
    rfl

/-- A word that a cut falls into is refused. -/
theorem Units.feed_cut (hU : D.Units enc good) {size : ℕ} (hs : 0 < size) {k : ℕ} (hk : k ≤ size)
    {a : α} (ha : good a) (hcut : ¬ offset size k + (enc a).length ≤ size) (rest : List β) :
    (D.restarting size).feed (k, D.init) (enc a ++ rest) = none := by
  have hlt : offset size k < size := by
    rw [offset]
    split_ifs with h
    · exact h
    · exact hs
  have hne := hU.word_ne_nil ha
  rw [D.feed_restarting_offset hs hk (by simp [hne]) hU.done_init]
  generalize offset size k = j at hcut hlt
  -- The cut leaves part of the word in this chunk, where it cannot end.
  have htake : ((enc a).take (size - j)).length = size - j := by
    rw [List.length_take]
    omega
  have hdrop : (enc a).drop (size - j) ≠ [] := by
    intro h
    have := congrArg List.length h
    rw [List.length_drop, List.length_nil] at this
    omega
  obtain ⟨q, hq, hdone⟩ := hU.inside a ha _ _ (List.take_append_drop (size - j) (enc a)).symm
    (List.ne_nil_of_length_pos (by omega)) hdrop
  have hfeed := D.feed_restarting_of_le size ((enc a).take (size - j)) j D.init (by omega)
  rw [← List.take_append_drop (size - j) (enc a), List.append_assoc, feed_append, hfeed, hq]
  simp only [Option.map_some, htake]
  rw [show j + (size - j) = size by omega,
    D.feed_restarting_at hs (by simp [hdrop]), if_neg (by rw [hdone]; simp)]

/-- A word that no cut falls into puts out its symbol. -/
theorem Units.feed_whole (hU : D.Units enc good) {size : ℕ} (hs : 0 < size) {k : ℕ} (hk : k ≤ size)
    {a : α} (ha : good a) (hle : offset size k + (enc a).length ≤ size) :
    (D.restarting size).feed (k, D.init) (enc a) =
      some ((offset size k + (enc a).length, D.init), [a]) := by
  rw [D.feed_restarting_offset hs hk (hU.word_ne_nil ha) hU.done_init,
    D.feed_restarting_of_le size (enc a) _ D.init hle, hU.whole a ha]
  rfl

/-- Words that no cut falls into put out their symbols, and what follows is read from the start. -/
theorem Units.decodeFrom_append (hU : D.Units enc good) {size : ℕ} (hs : 0 < size) (as : List α) :
    ∀ k, k ≤ size → (∀ a ∈ as, good a) → ∃ k', k' ≤ size ∧ ∀ rest,
      (D.restarting size).decodeFrom (k, D.init) (as.flatMap enc ++ rest) =
        if NoneCut size enc k as then
          ((D.restarting size).decodeFrom (k', D.init) rest).map (as ++ ·)
        else none := by
  induction as with
  | nil =>
    intro k hk _
    refine ⟨k, hk, fun rest => ?_⟩
    simp [NoneCut]
  | cons a as ih =>
    intro k hk hgood
    have ha : good a := hgood a (by simp)
    by_cases hle : offset size k + (enc a).length ≤ size
    · -- The word fits into its chunk.
      obtain ⟨k', hk', hrest⟩ := ih (offset size k + (enc a).length) hle
        fun b hb => hgood b (by simp [hb])
      refine ⟨k', hk', fun rest => ?_⟩
      rw [List.flatMap_cons, List.append_assoc, Decoder.decodeFrom_append,
        hU.feed_whole hs hk ha hle]
      simp only [hrest rest, NoneCut, hle, true_and]
      split_ifs
      · simp [Function.comp_def]
      · rfl
    · -- The word is cut, and nothing is put out.
      refine ⟨0, by omega, fun rest => ?_⟩
      rw [List.flatMap_cons, List.append_assoc, decodeFrom, hU.feed_cut hs hk ha hle]
      simp [NoneCut, hle]

/-- A text in such a code survives being cut exactly when no cut falls inside a word. -/
theorem Units.decodeFrom_units (hU : D.Units enc good) {size : ℕ} (hs : 0 < size) {as : List α}
    (hgood : ∀ a ∈ as, good a) :
    (D.restarting size).decode (as.flatMap enc) =
      if NoneCut size enc 0 as then some as else none := by
  obtain ⟨k', _, hrest⟩ := hU.decodeFrom_append hs as 0 (by omega) hgood
  have := hrest []
  rw [List.append_nil] at this
  rw [decode, show (D.restarting size).init = (0, D.init) from rfl, this]
  simp [decodeFrom, restarting, hU.done_init]

end Decoder
