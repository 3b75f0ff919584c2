import Mathlib.Algebra.Order.Group.Multiset

/-!
# A direct exchange

A broker with one queue for each key that is bound. What is published under a key goes to the queue
of the key; what is published under a key that is not bound is dropped. A consumer takes any of the
items that wait, since what several consumers take in turn comes to their handlers in any order.

`Conserves` is the account: what was accepted waits, or was taken, and that once. `IsFrom` says of
two collections that each item of the second comes from an item of the first, no two from the same.
So what a party makes of the items that it takes comes, in the same sense, from the items that were
published (`IsFrom.of_le`, `IsFrom.filterMap`).
-/

variable {κ μ α β γ : Type*}

/-! ## Items that come from others -/

/-- Each of the `ys` comes from one of the `xs` by `R`, and no two come from the same one. -/
def IsFrom (R : α → β → Prop) (xs : Multiset α) (ys : Multiset β) : Prop :=
  ∃ zs ≤ xs, Multiset.Rel R zs ys

namespace IsFrom

variable {R S : α → β → Prop} {xs xs' : Multiset α} {ys ys' : Multiset β}

/-- Where each of the `xs` has its own, none is left over. -/
theorem of_rel (h : Multiset.Rel R xs ys) : IsFrom R xs ys := ⟨xs, le_rfl, h⟩

/-- What comes from the `xs` comes from more than these. -/
theorem of_le (h : IsFrom R xs ys) (hle : xs ≤ xs') : IsFrom R xs' ys := by
  obtain ⟨zs, hzs, hrel⟩ := h
  exact ⟨zs, hzs.trans hle, hrel⟩

/-- Fewer than the `ys` come from the `xs`. -/
theorem le_of (h : IsFrom R xs ys) (hle : ys' ≤ ys) : IsFrom R xs ys' := by
  obtain ⟨zs, hzs, hrel⟩ := h
  obtain ⟨ds, rfl⟩ := Multiset.le_iff_exists_add.1 hle
  obtain ⟨zs₁, zs₂, hrel₁, -, rfl⟩ := Multiset.rel_add_right.1 hrel
  exact ⟨zs₁, (Multiset.le_add_right zs₁ zs₂).trans hzs, hrel₁⟩

/-- What a partial function makes of a collection comes from those that it is defined for. -/
theorem rel_filterMap (f : α → Option β) (xs : Multiset α) :
    Multiset.Rel (fun x y => f x = some y) (xs.filter fun x => (f x).isSome) (xs.filterMap f) := by
  induction xs using Multiset.induction with
  | empty => exact .zero
  | cons x xs ih =>
    cases hf : f x with
    | none =>
      rw [Multiset.filterMap_cons_none x xs hf, Multiset.filter_cons_of_neg _ (by simp [hf])]
      exact ih
    | some y =>
      rw [Multiset.filterMap_cons_some f x xs hf, Multiset.filter_cons_of_pos _ (by simp [hf])]
      exact .cons hf ih

/-- A partial function matters only on the items that are there. -/
theorem filterMap_congr {f g : α → Option β} {xs : Multiset α} (h : ∀ x ∈ xs, f x = g x) :
    xs.filterMap f = xs.filterMap g := by
  induction xs using Quotient.inductionOn with
  | h l => exact congrArg _ (List.filterMap_congr h)

/-- A partial function that is defined less often makes less. -/
theorem filterMap_le {f g : α → Option β} {xs : Multiset α}
    (h : ∀ x ∈ xs, ∀ y, f x = some y → g x = some y) : xs.filterMap f ≤ xs.filterMap g := by
  induction xs using Multiset.induction with
  | empty => exact le_rfl
  | cons x xs ih =>
    have hxs := ih fun x' hx' => h x' (Multiset.mem_cons_of_mem hx')
    cases hf : f x with
    | some y =>
      have hg := h x (Multiset.mem_cons_self x xs) y hf
      rw [Multiset.filterMap_cons_some f x xs hf, Multiset.filterMap_cons_some g x xs hg]
      exact Multiset.cons_le_cons y hxs
    | none =>
      rw [Multiset.filterMap_cons_none x xs hf, Multiset.filterMap_cons]
      exact hxs.trans (Multiset.le_add_left _ _)

/-- A collection that is part of two together is a part of each. -/
theorem exists_of_le_add {xs ys zs : Multiset α} (h : xs ≤ ys + zs) :
    ∃ us vs, xs = us + vs ∧ us ≤ ys ∧ vs ≤ zs := by
  classical
  refine ⟨xs - zs, xs ∩ zs, (Multiset.sub_add_inter xs zs).symm, ?_, Multiset.inter_le_right⟩
  exact Multiset.sub_le_iff_le_add.2 h

/-- The same of what another function makes of these items. -/
theorem rel_map_filterMap {R : β → γ → Prop} {f : α → β} {g : α → Option γ} {l : List α}
    (h : ∀ a ∈ l, ∀ c, g a = some c → R (f a) c) :
    Multiset.Rel R ((l.filter fun a => (g a).isSome).map f : List β) (l.filterMap g : List γ) := by
  induction l with
  | nil => exact .zero
  | cons a l ih =>
    obtain ⟨ha, hl⟩ := List.forall_mem_cons.1 h
    cases hg : g a with
    | none =>
      rw [List.filterMap_cons_none hg, List.filter_cons_of_neg (by simp [hg])]
      exact ih hl
    | some c =>
      rw [List.filterMap_cons_some hg, List.filter_cons_of_pos (by simp [hg])]
      exact .cons (ha c hg) (ih hl)

/-- Steps one after the other. -/
theorem rel_comp {R : α → β → Prop} {S : β → γ → Prop} {xs : Multiset α} {ys : Multiset β}
    {zs : Multiset γ} (h : Multiset.Rel R xs ys) (h' : Multiset.Rel S ys zs) :
    Multiset.Rel (fun x z => ∃ y, R x y ∧ S y z) xs zs := by
  induction h generalizing zs with
  | zero =>
    obtain rfl := Multiset.rel_zero_left.1 h'
    exact .zero
  | cons hxy _ ih =>
    obtain ⟨z, zs', hyz, hrest, rfl⟩ := Multiset.rel_cons_left.1 h'
    exact .cons ⟨_, hxy, hyz⟩ (ih hrest)

/-- So what comes from the `ys` comes from what these come from. -/
theorem trans {R : α → β → Prop} {S : β → γ → Prop} {xs : Multiset α} {ys : Multiset β}
    {zs : Multiset γ} (h : IsFrom R xs ys) (h' : IsFrom S ys zs) :
    IsFrom (fun x z => ∃ y, R x y ∧ S y z) xs zs := by
  obtain ⟨ys', hys', hrel'⟩ := h'
  obtain ⟨xs', hxs', hrel⟩ := h.le_of hys'
  exact ⟨xs', hxs', rel_comp hrel hrel'⟩

/-- The items with a property that goes with the relation. -/
theorem rel_filter {R : α → β → Prop} {xs : Multiset α} {ys : Multiset β} {p : α → Prop}
    {q : β → Prop} [DecidablePred p] [DecidablePred q] (hpq : ∀ x y, R x y → (p x ↔ q y))
    (h : Multiset.Rel R xs ys) : Multiset.Rel R (xs.filter p) (ys.filter q) := by
  induction h with
  | zero => exact .zero
  | @cons x y xs ys hxy _ ih =>
    by_cases hx : p x
    · rw [Multiset.filter_cons_of_pos xs hx, Multiset.filter_cons_of_pos ys ((hpq x y hxy).1 hx)]
      exact .cons hxy ih
    · have hy : ¬ q y := fun hy => hx ((hpq x y hxy).2 hy)
      rw [Multiset.filter_cons_of_neg xs hx, Multiset.filter_cons_of_neg ys hy]
      exact ih

/-- What is from some of a multiset is from those alone. -/
theorem filter {R : α → β → Prop} {xs : Multiset α} {ys : Multiset β} {p : α → Prop}
    {q : β → Prop} [DecidablePred p] [DecidablePred q] (hpq : ∀ x y, R x y → (p x ↔ q y))
    (h : IsFrom R xs ys) : IsFrom R (xs.filter p) (ys.filter q) := by
  obtain ⟨zs, hzs, hrel⟩ := h
  exact ⟨zs.filter p, Multiset.filter_le_filter p hzs, rel_filter hpq hrel⟩

/-- A weaker relation holds of what is from it. -/
theorem mono {R S : α → β → Prop} {xs : Multiset α} {ys : Multiset β}
    (hRS : ∀ x y, R x y → S x y) (h : IsFrom R xs ys) : IsFrom S xs ys := by
  obtain ⟨zs, hzs, hrel⟩ := h
  exact ⟨zs, hzs, hrel.mono fun x _ y _ => hRS x y⟩

end IsFrom

/-! ## The exchange -/

/-- A direct exchange, with what has gone through it. -/
structure Exchange (κ μ : Type*) where
  /-- The keys that have a queue. -/
  bound : κ → Bool
  /-- What waits in the queues, each item with the key of its queue. -/
  waiting : List (κ × μ)
  published : List (κ × μ)
  /-- What was published when its key was bound. -/
  accepted : List (κ × μ)
  taken : List (κ × μ)

namespace Exchange

/-- The exchange before anything is published. -/
def new (bound : κ → Bool) : Exchange κ μ := ⟨bound, [], [], [], []⟩

/-- A queue is declared, and bound by its key. -/
def bind [DecidableEq κ] (e : Exchange κ μ) (key : κ) : Exchange κ μ :=
  { e with bound := fun k => decide (k = key) || e.bound k }

/-- An item is published. -/
def publish (e : Exchange κ μ) (item : κ × μ) : Exchange κ μ :=
  if e.bound item.1 = true then
    { e with
      waiting := e.waiting ++ [item]
      published := e.published ++ [item]
      accepted := e.accepted ++ [item] }
  else { e with published := e.published ++ [item] }

/-- An item that waits is taken. -/
def take (e : Exchange κ μ) (i : ℕ) (item : κ × μ) : Exchange κ μ :=
  { e with waiting := e.waiting.eraseIdx i, taken := e.taken ++ [item] }

/-- What was published is published, with one item more. -/
@[simp] theorem published_publish (e : Exchange κ μ) (item : κ × μ) :
    (e.publish item).published = e.published ++ [item] := by
  unfold publish
  split_ifs
  · rfl
  · rfl

/-- Publishing takes nothing. -/
@[simp] theorem taken_publish (e : Exchange κ μ) (item : κ × μ) :
    (e.publish item).taken = e.taken := by
  unfold publish
  split_ifs
  · rfl
  · rfl

/-- The account of an exchange, with the keys that were bound from the start. -/
structure Conserves (initial : κ → Bool) (e : Exchange κ μ) : Prop where
  /-- No queue goes. -/
  bound : ∀ key, initial key = true → e.bound key = true
  /-- What was accepted waits, or was taken. -/
  balance : (e.waiting : Multiset (κ × μ)) + e.taken = e.accepted
  accepted_le : (e.accepted : Multiset (κ × μ)) ≤ e.published
  /-- Nothing was dropped of what was published under one of these keys. -/
  accepted_eq : ∀ p : κ × μ → Prop, ∀ [DecidablePred p], (∀ item, p item → initial item.1 = true) →
    (e.accepted : Multiset (κ × μ)).filter p = (e.published : Multiset (κ × μ)).filter p

namespace Conserves

variable {initial : κ → Bool} {e : Exchange κ μ}

/-- A new exchange has lost nothing. -/
theorem new (initial : κ → Bool) : Conserves initial (Exchange.new initial : Exchange κ μ) :=
  ⟨fun _ h => h, rfl, le_rfl, fun _ _ _ => rfl⟩

/-- A queue more loses nothing. -/
theorem bind [DecidableEq κ] (h : Conserves initial e) (key : κ) :
    Conserves initial (e.bind key) := by
  refine ⟨fun k hk => ?_, h.balance, h.accepted_le, h.accepted_eq⟩
  unfold Exchange.bind
  dsimp only
  rw [h.bound k hk, Bool.or_true]

/-- What is published waits, or has no queue. -/
theorem publish (h : Conserves initial e) (item : κ × μ) : Conserves initial (e.publish item) := by
  have hone : ∀ l : List (κ × μ), ((l ++ [item] : List (κ × μ)) : Multiset (κ × μ)) = l + {item} :=
    fun l => (Multiset.coe_add l [item]).symm
  unfold Exchange.publish
  split_ifs with hbound
  · refine ⟨h.bound, ?_, ?_, fun p _ hp => ?_⟩
    · dsimp only
      rw [hone, hone, ← h.balance, add_assoc, add_assoc, add_comm ({item} : Multiset (κ × μ))]
    · dsimp only
      rw [hone, hone]
      exact add_le_add h.accepted_le le_rfl
    · dsimp only
      rw [hone, hone, Multiset.filter_add, Multiset.filter_add, h.accepted_eq p hp]
  · refine ⟨h.bound, h.balance, ?_, fun p _ hp => ?_⟩
    · dsimp only
      rw [hone]
      exact h.accepted_le.trans (Multiset.le_add_right _ _)
    · -- The key was not bound from the start, so the item is not among those of `p`.
      have hnot : ¬ p item := fun hitem => hbound (h.bound _ (hp item hitem))
      dsimp only
      rw [hone, Multiset.filter_add, Multiset.filter_singleton, if_neg hnot, h.accepted_eq p hp]
      exact (add_zero _).symm

/-- What is taken does not wait any more. -/
theorem take (h : Conserves initial e) {i : ℕ} {item : κ × μ} (hi : e.waiting[i]? = some item) :
    Conserves initial (e.take i item) := by
  refine ⟨h.bound, ?_, h.accepted_le, h.accepted_eq⟩
  obtain ⟨hlt, rfl⟩ := List.getElem?_eq_some_iff.1 hi
  have hperm : (e.waiting[i] :: e.waiting.eraseIdx i).Perm e.waiting :=
    List.getElem_cons_eraseIdx_perm hlt
  have hwaiting : (e.waiting : Multiset (κ × μ)) = e.waiting.eraseIdx i + {e.waiting[i]} := by
    rw [← Multiset.coe_eq_coe.2 hperm, add_comm]
    rfl
  have htaken : ((e.taken ++ [e.waiting[i]] : List (κ × μ)) : Multiset (κ × μ)) =
      e.taken + {e.waiting[i]} := (Multiset.coe_add _ _).symm
  unfold Exchange.take
  dsimp only
  rw [← h.balance, hwaiting, htaken, add_assoc, add_comm (e.taken : Multiset (κ × μ))]

/-- Only what was published is taken, and no item more often than it was published. -/
theorem taken_le (h : Conserves initial e) : (e.taken : Multiset (κ × μ)) ≤ e.published := by
  have hle : (e.taken : Multiset (κ × μ)) ≤ e.accepted := by
    rw [← h.balance]
    exact Multiset.le_add_left _ _
  exact hle.trans h.accepted_le

/-- When nothing waits, all that was published under a key bound from the start was taken. -/
theorem taken_eq (h : Conserves initial e) (hwaiting : e.waiting = []) {p : κ × μ → Prop}
    [DecidablePred p] (hp : ∀ item, p item → initial item.1 = true) :
    (e.taken : Multiset (κ × μ)).filter p = (e.published : Multiset (κ × μ)).filter p := by
  have hbalance := h.balance
  rw [hwaiting, Multiset.coe_nil, zero_add] at hbalance
  rw [hbalance, h.accepted_eq p hp]

end Conserves

end Exchange
