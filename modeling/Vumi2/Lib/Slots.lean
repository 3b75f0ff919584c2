import Mathlib.Data.List.Perm.Basic
import Mathlib.Tactic.TypeStar

/-!
# Slots

A list of slots is a fixed number of places, one of which changes at a time (`List.set`): the tasks
of a pool, the threads of a program. What the slots hold together is a `filterMap` up to order, and
what they weigh is a sum; `filterMap_set_perm` and `total_set` say how one change shows in each.
-/

namespace Slots

variable {α β : Type*}

/-- A slot that changes from `a` to `b` gives up what `a` holds, and takes what `b` holds. -/
theorem filterMap_set_perm (f : α → Option β) {l : List α} {i : ℕ} {a : α} (h : l[i]? = some a)
    (b : α) :
    ((f a).toList ++ (l.set i b).filterMap f).Perm ((f b).toList ++ l.filterMap f) := by
  induction l generalizing i with
  | nil => simp at h
  | cons c l ih =>
    have hcons : ∀ (c : α) (l : List α),
        (c :: l).filterMap f = (f c).toList ++ l.filterMap f := by
      intro c l
      cases hc : f c with
      | none => rw [List.filterMap_cons_none hc]; rfl
      | some x => rw [List.filterMap_cons_some hc]; rfl
    cases i with
    | zero =>
      obtain rfl : c = a := by simpa using h
      rw [List.set_cons_zero, hcons, hcons, ← List.append_assoc, ← List.append_assoc]
      exact List.perm_append_comm.append_right _
    | succ i =>
      have htail := ih (by simpa using h)
      rw [List.set_cons_succ, hcons, hcons]
      -- Both slots change places with the head, which stays.
      calc (f a).toList ++ ((f c).toList ++ (l.set i b).filterMap f)
          _ = ((f a).toList ++ (f c).toList) ++ (l.set i b).filterMap f :=
            (List.append_assoc _ _ _).symm
          _ |>.Perm (((f c).toList ++ (f a).toList) ++ (l.set i b).filterMap f) :=
            List.perm_append_comm.append_right _
          _ = (f c).toList ++ ((f a).toList ++ (l.set i b).filterMap f) := List.append_assoc _ _ _
          _ |>.Perm ((f c).toList ++ ((f b).toList ++ l.filterMap f)) := htail.append_left _
          _ = ((f c).toList ++ (f b).toList) ++ l.filterMap f := (List.append_assoc _ _ _).symm
          _ |>.Perm (((f b).toList ++ (f c).toList) ++ l.filterMap f) :=
            List.perm_append_comm.append_right _
          _ = (f b).toList ++ ((f c).toList ++ l.filterMap f) := List.append_assoc _ _ _

/-- A change of a slot that keeps what `f` reads of it keeps what `f` reads of all. -/
theorem map_set_keep (f : α → β) {l : List α} {i : ℕ} {a b : α} (h : l[i]? = some a)
    (hab : f b = f a) : (l.set i b).map f = l.map f := by
  obtain ⟨hlt, rfl⟩ := List.getElem?_eq_some_iff.1 h
  have hlt' : i < (l.map f).length := by
    rw [List.length_map]
    exact hlt
  have hself : (l.map f).set i (f l[i]) = l.map f := by
    rw [← List.getElem_map f (h := hlt')]
    exact List.set_getElem_self hlt'
  rw [List.map_set, hab, hself]

/-- Slots go on holding what they held, when one of them does. -/
theorem filterMap_set_keep (f : α → Option β) {l : List α} {i : ℕ} {a : α} (h : l[i]? = some a)
    (b : α) (hab : f b = f a) : (l.set i b).filterMap f = l.filterMap f := by
  have hmap : ∀ l : List α, l.filterMap f = (l.map f).filterMap id := by
    intro l
    rw [List.filterMap_map]
    rfl
  calc (l.set i b).filterMap f
      _ = ((l.set i b).map f).filterMap id := hmap _
      _ = (l.map f).filterMap id := by rw [map_set_keep f h hab]
      _ = l.filterMap f := (hmap l).symm

/-- A slot that held nothing takes something. -/
theorem filterMap_set_take (f : α → Option β) {l : List α} {i : ℕ} {a : α} (h : l[i]? = some a)
    (b : α) {x : β} (ha : f a = none) (hb : f b = some x) :
    ((l.set i b).filterMap f).Perm (x :: l.filterMap f) := by
  have hset := filterMap_set_perm f h b
  rw [ha, hb] at hset
  exact hset

/-- A slot gives up what it held. -/
theorem filterMap_set_give (f : α → Option β) {l : List α} {i : ℕ} {a : α} (h : l[i]? = some a)
    (b : α) {x : β} (ha : f a = some x) (hb : f b = none) :
    (x :: (l.set i b).filterMap f).Perm (l.filterMap f) := by
  have hset := filterMap_set_perm f h b
  rw [ha, hb] at hset
  exact hset

/-- What the slots weigh together. -/
def total (w : α → ℕ) : List α → ℕ
  | [] => 0
  | a :: l => w a + total w l

/-- The weight of no slots. -/
@[simp] theorem total_nil (w : α → ℕ) : total w [] = 0 := rfl

/-- The weight of a slot and the others. -/
@[simp] theorem total_cons (w : α → ℕ) (a : α) (l : List α) :
    total w (a :: l) = w a + total w l := rfl

/-- A slot that changes from `a` to `b` gives up the weight of `a`, and takes that of `b`. -/
theorem total_set (w : α → ℕ) {l : List α} {i : ℕ} {a : α} (h : l[i]? = some a) (b : α) :
    total w (l.set i b) + w a = total w l + w b := by
  induction l generalizing i with
  | nil => simp at h
  | cons c l ih =>
    cases i with
    | zero =>
      obtain rfl : c = a := by simpa using h
      rw [List.set_cons_zero, total_cons, total_cons]
      omega
    | succ i =>
      have htail := ih (by simpa using h)
      rw [List.set_cons_succ, total_cons, total_cons]
      omega

/-- A change of every slot that keeps the weights keeps what they weigh together. -/
theorem total_map (w : α → ℕ) (f : α → α) (hf : ∀ a, w (f a) = w a) (l : List α) :
    total w (l.map f) = total w l := by
  induction l with
  | nil => rfl
  | cons a l ih => rw [List.map_cons, total_cons, total_cons, hf, ih]

/-- What holds of every slot, and of what one of them changes to, holds of every slot after it. -/
theorem forall_mem_set {p : α → Prop} {l : List α} {i : ℕ} {b : α} (h : ∀ x ∈ l, p x) (hb : p b) :
    ∀ x ∈ l.set i b, p x := by
  intro x hx
  rcases List.mem_or_eq_of_mem_set hx with hx | rfl
  · exact h x hx
  · exact hb

/-- A slot that changes stays the only one that does. -/
theorem mem_set_self {l : List α} {i : ℕ} {a : α} (h : l[i]? = some a) (b : α) : b ∈ l.set i b :=
  List.mem_set (List.getElem?_eq_some_iff.1 h).1 b

/-- What is in a slot after one of them has changed. -/
theorem getElem?_set_eq_some {l : List α} {i j : ℕ} {a b x : α} (h : l[i]? = some a) :
    (l.set i b)[j]? = some x ↔ j = i ∧ x = b ∨ j ≠ i ∧ l[j]? = some x := by
  have hi : i < l.length := (List.getElem?_eq_some_iff.1 h).1
  rw [List.getElem?_set]
  split_ifs with hij
  · subst hij
    simp [eq_comm]
  · have hne : j ≠ i := fun h => hij h.symm
    simp [hne]

/-- What holds of what the other slots hold, and of what one changes to, holds of all after it. -/
theorem forall_getElem?_set {p : ℕ → α → Prop} {l : List α} {i : ℕ} {a b : α} (h : l[i]? = some a)
    (hothers : ∀ j x, j ≠ i → l[j]? = some x → p j x) (hb : p i b) :
    ∀ j x, (l.set i b)[j]? = some x → p j x := by
  intro j x hj
  rcases (getElem?_set_eq_some h).1 hj with ⟨rfl, rfl⟩ | ⟨hne, hj⟩
  · exact hb
  · exact hothers j x hne hj

/-- What a slot holds stays so, if the change keeps it so. -/
theorem exists_getElem?_set {p : α → Prop} {l : List α} {i j : ℕ} {a b : α} (h : l[i]? = some a)
    (hj : ∃ x, l[j]? = some x ∧ p x) (hb : p a → p b) : ∃ x, (l.set i b)[j]? = some x ∧ p x := by
  obtain ⟨x, hx, hp⟩ := hj
  rcases eq_or_ne j i with rfl | hne
  · obtain rfl := Option.some.inj (h.symm.trans hx)
    exact ⟨b, (getElem?_set_eq_some h).2 (.inl ⟨rfl, rfl⟩), hb hp⟩
  · exact ⟨x, (getElem?_set_eq_some h).2 (.inr ⟨hne, hx⟩), hp⟩

/-- What is in a slot after one has been added. -/
theorem getElem?_append_singleton {l : List α} {j : ℕ} {a x : α} :
    (l ++ [a])[j]? = some x ↔ l[j]? = some x ∨ j = l.length ∧ x = a := by
  rcases Nat.lt_trichotomy j l.length with hlt | heq | hgt
  · have hne : j ≠ l.length := Nat.ne_of_lt hlt
    rw [List.getElem?_append_left hlt]
    simp [hne]
  · subst heq
    simp [eq_comm]
  · have hnone : (l ++ [a])[j]? = none := by
      rw [List.getElem?_eq_none_iff, List.length_append, List.length_singleton]
      omega
    have hnone' : l[j]? = none := List.getElem?_eq_none_iff.2 (Nat.le_of_lt hgt)
    have hne : j ≠ l.length := Nat.ne_of_gt hgt
    rw [hnone, hnone']
    simp [hne]

end Slots
