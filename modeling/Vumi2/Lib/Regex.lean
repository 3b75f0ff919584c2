import Vumi2.Lib.Dict
import Vumi2.Lib.Text

/-!
# Backtracking regular expressions with named groups

The fragment of Python's `re` in which a greedy repetition repeats a character class. The matcher is
the backtracking one: it takes a continuation for what follows, and tries the alternatives of an
expression in order, longest first for a repetition, until the continuation succeeds. So the groups
of a match are the ones that `re` reports, and not only some split of the text.

`run_some` is the rule for every match: it ends in a successful call of the continuation, at a
suffix of the text, with every group that does not lie under an option bound.

`Takes` is for texts whose match is known: it says where the first alternative of an expression
ends, and composes along the expression, so that `reMatch_of_takes` gives the groups of the match.
-/

open Text

/-- A regular expression. -/
inductive Regex where
  /-- `` (nothing). -/
  | empty
  /-- `[p]{lo,hi}`, greedy; no `hi` stands for no upper bound. -/
  | many (p : CodePoint → Bool) (lo : ℕ) (hi : Option ℕ)
  /-- `ab`. -/
  | seq (a b : Regex)
  /-- `(?:a)?`. -/
  | opt (a : Regex)
  /-- `(?P<name>a)`. -/
  | group (name : Str) (a : Regex)

namespace Regex

/-- One character of a class. -/
def one (p : CodePoint → Bool) : Regex := many p 1 (some 1)

/-- A literal text. -/
def lit : Str → Regex
  | [] => empty
  | c :: cs => seq (one (fun d => d = c)) (lit cs)

/-- The concatenation of a list of expressions. -/
def cat : List Regex → Regex
  | [] => empty
  | r :: rs => seq r (cat rs)

/-- The text that each group matched. -/
abbrev Groups : Type := Dict Str Str

/-- Calls `k` on `s` without its first `n` characters, then without fewer of them, down to `lo`,
until `k` succeeds. -/
def longestFirst {γ : Type} (k : Str → Option γ) (s : Str) (lo : ℕ) : ℕ → Option γ
  | 0 => if lo = 0 then k s else none
  | n + 1 =>
    if lo ≤ n + 1 then
      match k (s.drop (n + 1)) with
      | some r => some r
      | none => longestFirst k s lo n
    else none

/-- How many characters `[p]{,hi}` can match at the start of a text. -/
def available (p : CodePoint → Bool) (hi : Option ℕ) (s : Str) : ℕ :=
  match hi with
  | none => (s.takeWhile p).length
  | some h => min h (s.takeWhile p).length

/-- Matches at the start of a text, and then the continuation on the rest. -/
def run : Regex → Str → Groups → (Str → Groups → Option Groups) → Option Groups
  | empty, s, g, k => k s g
  | many p lo hi, s, g, k => longestFirst (fun s' => k s' g) s lo (available p hi s)
  | seq a b, s, g, k => run a s g fun s' g' => run b s' g' k
  | opt a, s, g, k =>
    match run a s g k with
    | some r => some r
    | none => k s g
  | group name a, s, g, k =>
    run a s g fun s' g' => k s' (g'.set name (s.take (s.length - s'.length)))

/-- `re.match`: matches at the start of the text. -/
def reMatch (r : Regex) (s : Str) : Option Groups := run r s Dict.empty fun _ g => some g

/-- The names of the groups, in order. -/
def names : Regex → List Str
  | empty => []
  | many _ _ _ => []
  | seq a b => names a ++ names b
  | opt a => names a
  | group name a => name :: names a

/-- The groups that take part in every match: those that no option is around. -/
def always : Regex → List Str
  | empty => []
  | many _ _ _ => []
  | seq a b => always a ++ always b
  | opt _ => []
  | group name a => name :: always a

/-- `match.groupdict()`: every group with its text, or with `None` where it took no part. -/
def groupdict (r : Regex) (g : Groups) : List (Str × Option Str) :=
  r.names.map fun name => (name, g.get? name)

/-- What `longestFirst` finds is found after some number of characters between the two. -/
theorem longestFirst_some {γ : Type} {k : Str → Option γ} {s : Str} {lo n : ℕ} {r : γ}
    (h : longestFirst k s lo n = some r) : ∃ m, m ≤ n ∧ lo ≤ m ∧ k (s.drop m) = some r := by
  induction n with
  | zero =>
    simp only [longestFirst] at h
    split_ifs at h with hlo
    exact ⟨0, le_rfl, by omega, by simpa using h⟩
  | succ n ih =>
    simp only [longestFirst] at h
    split_ifs at h with hlo
    cases hk : k (s.drop (n + 1)) with
    | some r' =>
      simp only [hk, Option.some.injEq] at h
      exact ⟨n + 1, le_rfl, hlo, by rw [hk, h]⟩
    | none =>
      simp only [hk] at h
      obtain ⟨m, hm, hlo', hr⟩ := ih h
      exact ⟨m, by omega, hlo', hr⟩

/-- A match ends in a successful call of the continuation. The text that is left is a suffix of the
text, the bound groups stay bound, and the groups that always take part are bound. -/
theorem run_some {r : Regex} {s : Str} {g g' : Groups} {k : Str → Groups → Option Groups}
    (h : run r s g k = some g') :
    ∃ s₁ g₁, k s₁ g₁ = some g' ∧ s₁ <:+ s ∧ (∀ n, (g.get? n).isSome → (g₁.get? n).isSome) ∧
      ∀ n ∈ r.always, (g₁.get? n).isSome := by
  -- The statement is about every continuation, so that `seq` can pass the one part to the other.
  induction r generalizing s g k with
  | empty => exact ⟨s, g, h, List.suffix_rfl, fun _ hn => hn, by simp [always]⟩
  | many p lo hi =>
    obtain ⟨m, _, _, hk⟩ := longestFirst_some h
    exact ⟨s.drop m, g, hk, List.drop_suffix m s, fun _ hn => hn, by simp [always]⟩
  | seq a b iha ihb =>
    obtain ⟨s₁, g₁, hb, hs₁, hkeep₁, hall₁⟩ := iha h
    obtain ⟨s₂, g₂, hk, hs₂, hkeep₂, hall₂⟩ := ihb hb
    refine ⟨s₂, g₂, hk, hs₂.trans hs₁, fun n hn => hkeep₂ n (hkeep₁ n hn), ?_⟩
    intro n hn
    rcases List.mem_append.1 hn with hn | hn
    · exact hkeep₂ n (hall₁ n hn)
    · exact hall₂ n hn
  | opt a ih =>
    simp only [run] at h
    -- The part is tried first; if the rest fails behind it, the empty match is taken.
    cases ha : run a s g k with
    | some r' =>
      simp only [ha, Option.some.injEq] at h
      subst h
      obtain ⟨s₁, g₁, hk, hs₁, hkeep, _⟩ := ih ha
      exact ⟨s₁, g₁, hk, hs₁, hkeep, by simp [always]⟩
    | none =>
      simp only [ha] at h
      exact ⟨s, g, h, List.suffix_rfl, fun _ hn => hn, by simp [always]⟩
  | group name a ih =>
    obtain ⟨s₁, g₁, hk, hs₁, hkeep, hall⟩ := ih h
    refine ⟨s₁, _, hk, hs₁, ?_, ?_⟩
    · -- The group that was just bound stays bound as well.
      intro n hn
      rw [Dict.get?_set]
      split_ifs
      · rfl
      · exact hkeep n hn
    · intro n hn
      rw [Dict.get?_set]
      split_ifs with hname
      · rfl
      · exact hall n ((List.mem_cons.1 hn).resolve_left hname)

/-- The groups that always take part are bound in every match. -/
theorem reMatch_always {r : Regex} {s : Str} {g : Groups} (h : r.reMatch s = some g) {n : Str}
    (hn : n ∈ r.always) : ∃ t, g.get? n = some t := by
  obtain ⟨_, g₁, hk, _, _, hall⟩ := run_some h
  cases hk
  exact Option.isSome_iff_exists.1 (hall n hn)

/-! ## The first alternative -/

/-- The first alternative of an expression ends at `s'` with the groups `g'`: where the continuation
succeeds from there, this is the match. -/
def Takes (r : Regex) (s : Str) (g : Groups) (s' : Str) (g' : Groups) : Prop :=
  ∀ k res, k s' g' = some res → run r s g k = some res

/-- No alternative of an expression matches. -/
def Fails (r : Regex) (s : Str) : Prop := ∀ g k, run r s g k = none

variable {r a b : Regex} {s s₁ s₂ t : Str} {g g₁ g₂ : Groups}

/-- The empty expression takes nothing. -/
theorem takes_empty (s : Str) (g : Groups) : Takes empty s g s g := fun _ _ h => h

/-- Two expressions take one after the other. -/
theorem Takes.seq (ha : Takes a s g s₁ g₁) (hb : Takes b s₁ g₁ s₂ g₂) :
    Takes (.seq a b) s g s₂ g₂ :=
  fun k res h => ha (fun s' g' => run b s' g' k) res (hb k res h)

/-- An optional expression takes what it can. -/
theorem Takes.opt (ha : Takes a s g s₁ g₁) : Takes (.opt a) s g s₁ g₁ := by
  intro k res h
  rw [run, ha k res h]

/-- An optional expression that fails takes nothing. -/
theorem takes_opt_of_fails (ha : Fails a s) : Takes (.opt a) s g s g := by
  intro k res h
  rw [run, ha]
  exact h

/-- A group is bound to what its expression takes. -/
theorem Takes.group (name : Str) (ha : Takes a (t ++ s) g s g₁) :
    Takes (.group name a) (t ++ s) g s (g₁.set name t) := by
  intro k res h
  rw [run]
  refine ha _ res ?_
  rw [List.length_append, Nat.add_sub_cancel, List.take_left]
  exact h

/-- The longest way is the first one, if it succeeds. -/
theorem longestFirst_of_some {γ : Type} {k : Str → Option γ} {lo n : ℕ} {res : γ} (hlo : lo ≤ n)
    (h : k (s.drop n) = some res) : longestFirst k s lo n = some res := by
  cases n with
  | zero =>
    rw [longestFirst, if_pos (Nat.le_zero.1 hlo)]
    exact h
  | succ n => rw [longestFirst, if_pos hlo, h]

/-- There is no way if none between the two succeeds. -/
theorem longestFirst_of_none {γ : Type} {k : Str → Option γ} {lo n : ℕ}
    (h : ∀ m, lo ≤ m → m ≤ n → k (s.drop m) = none) : longestFirst k s lo n = none := by
  induction n with
  | zero =>
    rw [longestFirst]
    split_ifs with hlo
    · exact h 0 (by omega) (le_refl _)
    · rfl
  | succ n ih =>
    rw [longestFirst]
    split_ifs with hlo
    · rw [h (n + 1) hlo (le_refl _)]
      exact ih fun m hm hmn => h m hm (by omega)
    · rfl

/-- A text ends where a character stands that the class does not have. -/
def Stops (p : CodePoint → Bool) (s : Str) : Prop := ∀ c rest, s = c :: rest → p c = false

/-- A text of a class ends where a character stands that the class does not have. -/
theorem takeWhile_of_stops {p : CodePoint → Bool} (ht : ∀ c ∈ t, p c = true) (hs : Stops p s) :
    (t ++ s).takeWhile p = t := by
  have hnone : s.takeWhile p = [] := by
    cases s with
    | nil => rfl
    | cons c rest =>
      exact List.takeWhile_cons_of_neg (by rw [hs c rest rfl]; exact Bool.false_ne_true)
  rw [List.takeWhile_append_of_pos ht, hnone, List.append_nil]

/-- A repetition takes all characters of its class, as far as its bound allows. -/
theorem takes_many {p : CodePoint → Bool} {lo : ℕ} {hi : Option ℕ} (ht : ∀ c ∈ t, p c = true)
    (hs : Stops p s) (hlo : lo ≤ t.length) (hhi : ∀ h, hi = some h → t.length ≤ h) (g : Groups) :
    Takes (.many p lo hi) (t ++ s) g s g := by
  have havailable : available p hi (t ++ s) = t.length := by
    unfold available
    rw [takeWhile_of_stops ht hs]
    cases hi with
    | none => rfl
    | some h => exact Nat.min_eq_right (hhi h rfl)
  intro k res h
  rw [run, havailable]
  exact longestFirst_of_some hlo (by rw [List.drop_left]; exact h)

/-- A repetition of any number of characters takes what is there. -/
theorem takes_many_any {p : CodePoint → Bool} (hi : Option ℕ) (s : Str) (g : Groups) :
    Takes (.many p 0 hi) s g (s.drop (available p hi s)) g := by
  intro k res h
  rw [run]
  exact longestFirst_of_some (Nat.zero_le _) h

/-- So does a group of it. -/
theorem takes_group_many_any (name : Str) {p : CodePoint → Bool} (hi : Option ℕ) (s : Str)
    (g : Groups) :
    Takes (.group name (.many p 0 hi)) s g (s.drop (available p hi s))
      (g.set name (s.take (available p hi s))) := by
  intro k res h
  rw [run]
  refine takes_many_any hi s g _ res ?_
  have htake :
      s.take (s.length - (s.drop (available p hi s)).length) = s.take (available p hi s) := by
    rw [List.length_drop, List.take_eq_take_iff]
    omega
  rw [htake]
  exact h

/-- A character of a class is taken. -/
theorem takes_one {p : CodePoint → Bool} {c : CodePoint} (hc : p c = true) (s : Str) (g : Groups) :
    Takes (one p) (c :: s) g s g := by
  intro k res h
  have havailable : available p (some 1) (c :: s) = 1 := by
    unfold available
    rw [List.takeWhile_cons_of_pos hc, List.length_cons]
    exact Nat.min_eq_left (Nat.succ_le_succ (Nat.zero_le _))
  rw [one, run, havailable]
  exact longestFirst_of_some (le_refl _) h

/-- A literal takes itself. -/
theorem takes_lit (t s : Str) (g : Groups) : Takes (lit t) (t ++ s) g s g := by
  induction t with
  | nil => exact takes_empty s g
  | cons c cs ih => exact (takes_one (decide_eq_true rfl) (cs ++ s) g).seq ih

/-- A literal that the text does not begin with. -/
theorem fails_lit (h : ¬ t <+: s) : Fails (lit t) s := by
  induction t generalizing s with
  | nil => exact absurd (List.nil_prefix) h
  | cons c cs ih =>
    intro g k
    rw [lit, run, one, run]
    refine longestFirst_of_none fun m hm hmn => ?_
    -- One character was taken, and it is the first one of the literal.
    have hm1 : m = 1 := by
      have : available (fun d => d = c) (some 1) s ≤ 1 := Nat.min_le_left _ _
      omega
    subst hm1
    cases s with
    | nil =>
      have hzero : available (fun d => d = c) (some 1) ([] : Str) = 0 := rfl
      omega
    | cons d rest =>
      by_cases hd : d = c
      · subst hd
        exact ih (fun hprefix => h (List.cons_prefix_cons.2 ⟨rfl, hprefix⟩)) g k
      · have hzero : available (fun d => d = c) (some 1) (d :: rest) = 0 := by
          unfold available
          rw [List.takeWhile_cons_of_neg (by rw [decide_eq_true_eq]; exact hd)]
          rfl
        omega

/-- Two expressions fail if the first one does. -/
theorem Fails.seq (ha : Fails a s) (b : Regex) : Fails (.seq a b) s := fun g _ => ha g _

/-- What follows a repetition fails wherever the repetition may end. -/
theorem fails_many_seq {p : CodePoint → Bool} {lo : ℕ} {hi : Option ℕ}
    (h : ∀ m, lo ≤ m → m ≤ available p hi s → Fails b (s.drop m)) :
    Fails (.seq (.many p lo hi) b) s := by
  intro g k
  rw [run, run]
  exact longestFirst_of_none fun m hm hmn => h m hm hmn g k

/-- The match of a text is the first alternative, if that matches. -/
theorem reMatch_of_takes (h : Takes r s Dict.empty s₁ g₁) : r.reMatch s = some g₁ :=
  h (fun _ g => some g) g₁ rfl

end Regex
