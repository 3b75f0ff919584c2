import Mathlib.Data.List.Basic
import Mathlib.Tactic.TypeStar

/-!
# Framing

A reader of frames keeps a buffer. `split` takes one frame off its front, or says that there is none
yet. The stream comes in chunks: the reader extends the buffer by a chunk, and then takes frames
until there is none.

`Takes` is any number of frames taken in a row, and `Drains` all of them. What a reader yields does
not depend on where the chunks are cut, if a frame stays a frame when more bytes follow it
(`Reader`): a buffer yields its frames in one way only (`drains_unique`), and what it yields can be
cut where a chunk ends (`drains_prefix`).
-/

namespace Framing

variable {β : Type*}

/-- What `split` must do for a stream to be read in chunks. -/
structure Reader (split : List β → Option (List β) × List β) : Prop where
  /-- A frame at the front of the buffer is the same frame when more follows. -/
  stable : ∀ {d f r : List β} (more : List β), split d = (some f, r) →
    split (d ++ more) = (some f, r ++ more)
  /-- A buffer without a frame is left alone. -/
  unchanged : ∀ {d r : List β}, split d = (none, r) → r = d

variable (split : List β → Option (List β) × List β)

/-- The frames can be taken off `d` one after the other, which leaves `r`. -/
def Takes (d : List β) : List (List β) → List β → Prop
  | [], r => r = d
  | f :: fs, r => ∃ d', split d = (some f, d') ∧ Takes d' fs r

/-- The frames are all that can be taken off `d`, and `r` is left. -/
def Drains (d : List β) (fs : List (List β)) (r : List β) : Prop :=
  Takes split d fs r ∧ split r = (none, r)

variable {split} {d r r' : List β} {fs fs' : List (List β)}

/-- What was taken is taken again when more bytes follow. -/
theorem takes_append (hr : Reader split) (h : Takes split d fs r) (more : List β) :
    Takes split (d ++ more) fs (r ++ more) := by
  induction fs generalizing d with
  | nil =>
    obtain rfl : r = d := h
    rfl
  | cons f fs ih =>
    obtain ⟨d', hd, htakes⟩ := h
    exact ⟨d' ++ more, hr.stable more hd, ih htakes⟩

/-- One more frame is taken. -/
theorem takes_concat {f : List β} (h : Takes split d fs r) (hf : split r = (some f, r')) :
    Takes split d (fs ++ [f]) r' := by
  induction fs generalizing d with
  | nil =>
    obtain rfl : r = d := h
    exact ⟨r', hf, rfl⟩
  | cons g fs ih =>
    obtain ⟨d', hd, htakes⟩ := h
    exact ⟨d', hd, ih htakes⟩

/-- A buffer yields its frames in one way only. -/
theorem drains_unique (h : Drains split d fs r) (h' : Drains split d fs' r') :
    fs = fs' ∧ r = r' := by
  obtain ⟨htakes, hend⟩ := h
  obtain ⟨htakes', hend'⟩ := h'
  induction fs generalizing d fs' with
  | nil =>
    obtain rfl : r = d := htakes
    cases fs' with
    | nil => exact ⟨rfl, htakes'.symm⟩
    | cons f' fs' =>
      -- The one has come to its end, where the other would go on.
      obtain ⟨d', hd, -⟩ := htakes'
      rw [hend] at hd
      cases hd
  | cons f fs ih =>
    obtain ⟨d₁, hd, htakes⟩ := htakes
    cases fs' with
    | nil =>
      obtain rfl : r' = d := htakes'
      rw [hend'] at hd
      cases hd
    | cons f' fs' =>
      obtain ⟨d₂, hd', htakes'⟩ := htakes'
      -- The splitting is a function, so both take the same frame.
      obtain ⟨hf, rfl⟩ : some f = some f' ∧ d₁ = d₂ := by
        rw [hd] at hd'
        exact Prod.mk.inj hd'
      obtain ⟨rfl, rfl⟩ := ih htakes htakes'
      exact ⟨by rw [Option.some.inj hf], rfl⟩

/-- What a buffer yields can be cut where a chunk ends. -/
theorem drains_prefix (hr : Reader split) {more : List β} (h : Drains split (d ++ more) fs r) :
    ∃ fs₁ r₁ fs₂, Drains split d fs₁ r₁ ∧ Drains split (r₁ ++ more) fs₂ r ∧ fs = fs₁ ++ fs₂ := by
  induction fs generalizing d with
  | nil =>
    -- Nothing at all is yielded, so nothing before the cut.
    rcases hd : split d with ⟨_ | f, d'⟩
    · obtain rfl := hr.unchanged hd
      exact ⟨[], d', [], ⟨rfl, hd⟩, h, rfl⟩
    · obtain ⟨htakes, hend⟩ := h
      obtain rfl : r = d ++ more := htakes
      rw [hr.stable more hd] at hend
      cases hend
  | cons f fs ih =>
    rcases hd : split d with ⟨_ | f', d'⟩
    · obtain rfl := hr.unchanged hd
      exact ⟨[], d', f :: fs, ⟨rfl, hd⟩, h, rfl⟩
    · obtain ⟨⟨d₁, hd₁, htakes⟩, hend⟩ := h
      rw [hr.stable more hd] at hd₁
      obtain ⟨hf, rfl⟩ := Prod.mk.inj hd₁
      obtain rfl := Option.some.inj hf
      obtain ⟨fs₁, r₁, fs₂, h₁, h₂, rfl⟩ := ih ⟨htakes, hend⟩
      exact ⟨f' :: fs₁, r₁, fs₂, ⟨⟨d', hd, h₁.1⟩, h₁.2⟩, h₂, rfl⟩

end Framing
