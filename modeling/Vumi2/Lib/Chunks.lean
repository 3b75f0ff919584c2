import Mathlib.Algebra.Order.Group.Nat
import Mathlib.Data.List.Basic
import Mathlib.Tactic.TypeStar

/-!
# Cutting a list into chunks

`chunks size l` is the list of the slices `l[i : i + size]` for `i` in `range(0, len(l), size)`:
all of them have `size` elements except that the last one may have fewer. `chunks_of_lt` and
`chunks_of_le` are its recursion, and `chunks_induction` is the induction along it.
-/

namespace Chunks

variable {α : Type*}

/-- The slices of a list at the multiples of `size`. -/
def chunks (size : ℕ) (l : List α) : List (List α) :=
  (List.range ((l.length + size - 1) / size)).map fun i => (l.drop (i * size)).take size

/-- The number of chunks is the length over the size, rounded up. -/
@[simp] theorem length_chunks (size : ℕ) (l : List α) :
    (chunks size l).length = (l.length + size - 1) / size := by
  simp [chunks]

/-- The empty list has no chunks. -/
@[simp] theorem chunks_nil {size : ℕ} (hs : 0 < size) : chunks size ([] : List α) = [] := by
  rw [chunks, List.length_nil, Nat.zero_add, Nat.div_eq_of_lt (by omega)]
  rfl

/-- A chunk has `size` elements at most. -/
theorem length_le_of_mem_chunks {size : ℕ} {l c : List α} (h : c ∈ chunks size l) :
    c.length ≤ size := by
  obtain ⟨i, -, rfl⟩ := List.mem_map.1 h
  exact List.length_take_le _ _

/-- Each chunk starts before the end of the list. -/
theorem mul_lt_of_lt_count {size n i : ℕ} (h : i < (n + size - 1) / size) : i * size < n := by
  have hpos : 0 < size := by
    by_contra hzero
    rw [Nat.eq_zero_of_not_pos hzero, Nat.div_zero] at h
    exact Nat.not_lt_zero i h
  have hmul : (i + 1) * size ≤ n + size - 1 := (Nat.le_div_iff_mul_le hpos).1 h
  rw [Nat.succ_mul] at hmul
  omega

/-- No chunk is empty. -/
theorem ne_nil_of_mem_chunks {size : ℕ} (hs : 0 < size) {l c : List α} (h : c ∈ chunks size l) :
    c ≠ [] := by
  obtain ⟨i, hi, rfl⟩ := List.mem_map.1 h
  have hlt := mul_lt_of_lt_count (List.mem_range.1 hi)
  apply List.ne_nil_of_length_pos
  rw [List.length_take, List.length_drop]
  omega

/-- All chunks but the last have `size` elements. -/
theorem length_getElem_chunks {size i : ℕ} {l : List α} (h : i + 1 < (chunks size l).length) :
    ((chunks size l)[i]).length = size := by
  have hlt := mul_lt_of_lt_count (h.trans_eq (length_chunks size l))
  rw [Nat.succ_mul] at hlt
  unfold chunks
  rw [List.getElem_map, List.getElem_range, List.length_take, List.length_drop]
  omega

/-- The chunks of a list are as few as its parts of at most `size` elements can be. -/
theorem length_chunks_le_of_parts {size : ℕ} (hs : 0 < size) {parts : List (List α)}
    (h : ∀ part ∈ parts, part.length ≤ size) :
    (chunks size parts.flatten).length ≤ parts.length := by
  have hlength : parts.flatten.length ≤ parts.length * size := by
    induction parts with
    | nil => exact Nat.zero_le _
    | cons part parts ih =>
      have hpart := h part List.mem_cons_self
      have hparts := ih fun part hmem => h part (List.mem_cons_of_mem _ hmem)
      rw [List.flatten_cons, List.length_append, List.length_cons, Nat.succ_mul]
      omega
  apply Nat.le_of_lt_succ
  rw [length_chunks, Nat.div_lt_iff_lt_mul hs, Nat.succ_mul]
  omega

/-- A list that fits is one chunk. -/
theorem chunks_of_le {size : ℕ} {l : List α} (hne : l ≠ []) (h : l.length ≤ size) :
    chunks size l = [l] := by
  have hpos : 0 < l.length := List.length_pos_of_ne_nil hne
  have hcount : (l.length + size - 1) / size = 1 := by
    rw [Nat.div_eq_iff (by omega)]
    omega
  rw [chunks, hcount]
  simp [List.take_of_length_le h]

/-- A longer list is its first `size` elements, then the chunks of the rest. -/
theorem chunks_of_lt {size : ℕ} {l : List α} (hs : 0 < size) (h : size < l.length) :
    chunks size l = l.take size :: chunks size (l.drop size) := by
  have hcount : (l.length + size - 1) / size = ((l.drop size).length + size - 1) / size + 1 := by
    rw [List.length_drop, ← Nat.add_div_right _ hs]
    congr 1
    omega
  rw [chunks, hcount, List.range_succ_eq_map, List.map_cons, List.map_map]
  refine congrArg₂ _ (by simp) ?_
  rw [chunks]
  apply List.map_congr_left
  intro i _
  simp only [Function.comp_apply, List.drop_drop]
  rw [Nat.succ_mul, Nat.add_comm]

/-- Induction along the recursion of `chunks`. -/
theorem chunks_induction {size : ℕ} (hs : 0 < size) {motive : List α → Prop} (nil : motive [])
    (last : ∀ l, l ≠ [] → l.length ≤ size → motive l)
    (more : ∀ l, size < l.length → motive (l.drop size) → motive l) (l : List α) : motive l := by
  generalize hn : l.length = n
  induction n using Nat.strong_induction_on generalizing l with
  | _ n ih =>
    by_cases hle : l.length ≤ size
    · by_cases hne : l = []
      · rw [hne]
        exact nil
      · exact last l hne hle
    · exact more l (by omega) (ih (l.drop size).length (by rw [List.length_drop]; omega) _ rfl)

/-- The chunks are the list. -/
theorem flatten_chunks {size : ℕ} (hs : 0 < size) (l : List α) : (chunks size l).flatten = l := by
  induction l using chunks_induction hs with
  | nil =>
    rw [chunks_nil hs]
    rfl
  | last l hne hle => rw [chunks_of_le hne hle, List.flatten_singleton]
  | more l hlt ih => rw [chunks_of_lt hs hlt, List.flatten_cons, ih, List.take_append_drop]

end Chunks
