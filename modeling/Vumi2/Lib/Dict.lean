import Mathlib.Data.List.Nodup
import Mathlib.Tactic.TypeStar

/-!
# Insertion-ordered dictionaries

`Dict κ ν` is a finite map that remembers the order in which its keys were inserted: setting a new
key appends it, setting a present key changes its value in place, and erasing a key keeps the order
of the others. It is a list of entries together with the proof that no key occurs twice, so that a
lookup has at most one answer.

Lookups are the observations: each operation has one lemma for the key that it names and one for
every other key. `items_set_of_not_mem` and `items_erase` say what the order becomes.
-/

/-- A finite map in insertion order. -/
structure Dict (κ ν : Type*) where
  /-- The entries, oldest first. -/
  items : List (κ × ν)
  /-- No key occurs twice. -/
  nodup : (items.map Prod.fst).Nodup

namespace Dict

variable {κ ν : Type*}

/-- Two dictionaries with the same entries in the same order are equal. -/
@[ext] theorem ext {d e : Dict κ ν} (h : d.items = e.items) : d = e := by
  cases d; cases e; simpa using h

instance [DecidableEq κ] [DecidableEq ν] : DecidableEq (Dict κ ν) := fun d e =>
  decidable_of_iff (d.items = e.items) ⟨ext, fun h => by rw [h]⟩

/-- The dictionary with no entries. -/
def empty : Dict κ ν := ⟨[], List.nodup_nil⟩

instance : Inhabited (Dict κ ν) := ⟨empty⟩

/-- The empty dictionary has no entries. -/
@[simp] theorem items_empty : (empty : Dict κ ν).items = [] := rfl

/-- The keys, oldest first. -/
def keys (d : Dict κ ν) : List κ := d.items.map Prod.fst

/-- The values, in the order of their keys. -/
def values (d : Dict κ ν) : List ν := d.items.map Prod.snd

/-- The number of entries. -/
def length (d : Dict κ ν) : ℕ := d.items.length

/-- A dictionary has as many keys as entries. -/
theorem length_keys (d : Dict κ ν) : d.keys.length = d.length := List.length_map _

/-- No key is there twice. -/
theorem keys_nodup (d : Dict κ ν) : d.keys.Nodup := d.nodup

/-- A key is there if it has a value. -/
theorem mem_keys {d : Dict κ ν} {k : κ} : k ∈ d.keys ↔ ∃ v, (k, v) ∈ d.items := by
  simp [keys]

/-- The entries that satisfy a predicate, in their order. -/
def filter (d : Dict κ ν) (p : κ × ν → Bool) : Dict κ ν :=
  ⟨d.items.filter p, d.nodup.sublist (List.filter_sublist.map _)⟩

section

variable [DecidableEq κ]

/-- The value of a key. -/
def get? (d : Dict κ ν) (k : κ) : Option ν := (d.items.find? (fun e => e.1 = k)).map Prod.snd

/-- Whether a key is present. -/
def contains (d : Dict κ ν) (k : κ) : Bool := d.items.any (fun e => e.1 = k)

/-- The entries after a key is set: in place if it is present, else at the end. -/
def setItems (items : List (κ × ν)) (k : κ) (v : ν) : List (κ × ν) :=
  if items.any (fun e => e.1 = k) then items.map (fun e => if e.1 = k then (k, v) else e)
  else items ++ [(k, v)]

/-- A key that is there keeps its place when it is set. -/
theorem map_fst_setItems_of_mem {items : List (κ × ν)} {k : κ} (v : ν)
    (h : items.any (fun e => e.1 = k) = true) :
    (setItems items k v).map Prod.fst = items.map Prod.fst := by
  rw [setItems, if_pos h, List.map_map]
  apply List.map_congr_left
  intro e _
  by_cases he : e.1 = k
  · simp [he]
  · simp [he]

/-- Sets a key. -/
def set (d : Dict κ ν) (k : κ) (v : ν) : Dict κ ν where
  items := setItems d.items k v
  nodup := by
    by_cases h : d.items.any (fun e => e.1 = k) = true
    · rw [map_fst_setItems_of_mem v h]
      exact d.nodup
    · have hk : k ∉ d.items.map Prod.fst := by
        simpa [List.any_eq_true] using h
      rw [setItems, if_neg h, List.map_append, List.nodup_append]
      refine ⟨d.nodup, by simp, ?_⟩
      rintro a ha b hb rfl
      simp only [List.map_cons, List.map_nil, List.mem_singleton] at hb
      exact hk (hb ▸ ha)

/-- Removes a key, if it is present. -/
def erase (d : Dict κ ν) (k : κ) : Dict κ ν := d.filter (fun e => e.1 ≠ k)

/-- The value of a key, set to `v` first if the key is absent. -/
def setdefault (d : Dict κ ν) (k : κ) (v : ν) : Dict κ ν × ν :=
  match d.get? k with
  | some w => (d, w)
  | none => (d.set k v, v)

/-- The value of a key is the one in its entry. -/
theorem get?_eq_some {d : Dict κ ν} {k : κ} {v : ν} : d.get? k = some v ↔ (k, v) ∈ d.items := by
  constructor
  · intro h
    obtain ⟨e, he, rfl⟩ := Option.map_eq_some_iff.1 h
    have hk : e.1 = k := by simpa using List.find?_some he
    rw [← hk]
    exact List.mem_of_find?_eq_some he
  · intro h
    cases hf : d.items.find? (fun e => e.1 = k) with
    | none =>
      have := List.find?_eq_none.1 hf (k, v) h
      simp at this
    | some e =>
      have hk : e.1 = k := by simpa using List.find?_some hf
      have he := List.mem_of_find?_eq_some hf
      have heq : e = (k, v) := List.inj_on_of_nodup_map d.nodup he h hk
      rw [get?, hf, heq]
      rfl

/-- A key has no value exactly if it is not among the keys. -/
theorem get?_eq_none {d : Dict κ ν} {k : κ} : d.get? k = none ↔ k ∉ d.keys := by
  rw [get?, Option.map_eq_none_iff, List.find?_eq_none, mem_keys]
  constructor
  · rintro h ⟨v, hv⟩
    simpa using h (k, v) hv
  · rintro h e he
    have : e.1 ≠ k := fun hk => h ⟨e.2, by rw [← hk]; exact he⟩
    simpa using this

/-- A key is contained if it has a value. -/
theorem contains_eq_isSome (d : Dict κ ν) (k : κ) : d.contains k = (d.get? k).isSome := by
  rw [contains, get?, Option.isSome_map, Bool.eq_iff_iff, List.any_eq_true, List.find?_isSome]

/-- No key has a value in the empty dictionary. -/
@[simp] theorem get?_empty (k : κ) : (empty : Dict κ ν).get? k = none := rfl

/-- A new key is set at the end. -/
theorem items_set_of_not_mem {d : Dict κ ν} {k : κ} (v : ν) (h : d.get? k = none) :
    (d.set k v).items = d.items ++ [(k, v)] := by
  have hc : d.items.any (fun e => e.1 = k) = false := by
    have := contains_eq_isSome d k
    rw [h] at this
    exact this
  show setItems d.items k v = _
  rw [setItems, if_neg (by rw [hc]; simp)]

/-- The keys do not depend on the value that is set. -/
theorem keys_set_eq (d : Dict κ ν) (k : κ) (v w : ν) : (d.set k v).keys = (d.set k w).keys := by
  show (setItems d.items k v).map Prod.fst = (setItems d.items k w).map Prod.fst
  by_cases h : d.items.any (fun e => e.1 = k) = true
  · rw [map_fst_setItems_of_mem v h, map_fst_setItems_of_mem w h]
  · rw [setItems, if_neg h, setItems, if_neg h, List.map_append, List.map_append]
    rfl

/-- Erasing a key takes its entry out, and leaves the others in order. -/
@[simp] theorem items_erase (d : Dict κ ν) (k : κ) :
    (d.erase k).items = d.items.filter (fun e => e.1 ≠ k) := rfl

/-- A key that was set has that value. -/
@[simp] theorem get?_set_self (d : Dict κ ν) (k : κ) (v : ν) : (d.set k v).get? k = some v := by
  rw [get?_eq_some]
  show (k, v) ∈ setItems d.items k v
  rw [setItems]
  split_ifs with h
  · obtain ⟨e, he, hk⟩ := List.any_eq_true.1 h
    exact List.mem_map.2 ⟨e, he, by rw [if_pos (by simpa using hk)]⟩
  · simp

/-- Setting a key leaves the entries of the others. -/
theorem mem_setItems_of_ne {items : List (κ × ν)} {k l : κ} (v w : ν) (h : l ≠ k) :
    (l, w) ∈ setItems items k v ↔ (l, w) ∈ items := by
  rw [setItems]
  split_ifs with hc
  · constructor
    · intro hm
      obtain ⟨e, he, heq⟩ := List.mem_map.1 hm
      split_ifs at heq with hk
      · exact absurd (congrArg Prod.fst heq).symm h
      · rwa [heq] at he
    · intro hm
      exact List.mem_map.2 ⟨(l, w), hm, by rw [if_neg h]⟩
  · simp [h]

/-- Setting a key leaves the values of the others. -/
@[simp] theorem get?_set_of_ne (d : Dict κ ν) {k l : κ} (v : ν) (h : l ≠ k) :
    (d.set k v).get? l = d.get? l := by
  apply Option.ext
  intro w
  rw [get?_eq_some, get?_eq_some]
  exact mem_setItems_of_ne v w h

/-- The values after a key was set. -/
theorem get?_set (d : Dict κ ν) (k l : κ) (v : ν) :
    (d.set k v).get? l = if l = k then some v else d.get? l := by
  split_ifs with h
  · rw [h, get?_set_self]
  · exact get?_set_of_ne d v h

/-- An erased key has no value. -/
@[simp] theorem get?_erase_self (d : Dict κ ν) (k : κ) : (d.erase k).get? k = none := by
  rw [get?_eq_none, mem_keys]
  rintro ⟨v, hv⟩
  simp at hv

/-- Erasing a key leaves the values of the others. -/
@[simp] theorem get?_erase_of_ne (d : Dict κ ν) {k l : κ} (h : l ≠ k) :
    (d.erase k).get? l = d.get? l := by
  apply Option.ext
  intro w
  rw [get?_eq_some, get?_eq_some, items_erase, List.mem_filter]
  simp [h]

/-- The values after a key was erased. -/
theorem get?_erase (d : Dict κ ν) (k l : κ) :
    (d.erase k).get? l = if l = k then none else d.get? l := by
  split_ifs with h
  · rw [h, get?_erase_self]
  · exact get?_erase_of_ne d h

/-- A dictionary in which every lookup fails is empty. -/
theorem eq_empty_of_get? {d : Dict κ ν} (h : ∀ k, d.get? k = none) : d = empty := by
  apply ext
  rw [items_empty, List.eq_nil_iff_forall_not_mem]
  rintro ⟨k, v⟩ he
  have := get?_eq_some.2 he
  rw [h k] at this
  cases this

/-- `dict(items)`: where a key occurs twice, its last value counts. -/
def ofItems (items : List (κ × ν)) : Dict κ ν := items.foldl (fun d e => d.set e.1 e.2) empty

/-- Entries of distinct keys are added to a dictionary as they are. -/
theorem items_foldl_set {items : List (κ × ν)} {d : Dict κ ν}
    (h : ((d.items ++ items).map Prod.fst).Nodup) :
    (items.foldl (fun d e => d.set e.1 e.2) d).items = d.items ++ items := by
  induction items generalizing d with
  | nil => simp
  | cons e items ih =>
    have hnew : d.get? e.1 = none := by
      rw [get?_eq_none]
      intro hmem
      rw [List.map_append, List.map_cons] at h
      exact (List.nodup_append.1 h).2.2 _ hmem _ List.mem_cons_self rfl
    have hitems := items_set_of_not_mem e.2 hnew
    have h' : (((d.set e.1 e.2).items ++ items).map Prod.fst).Nodup := by
      rw [hitems, List.append_assoc]
      exact h
    rw [List.foldl_cons, ih h', hitems, List.append_assoc]
    rfl

/-- A dictionary is made of its entries. -/
@[simp] theorem ofItems_items (d : Dict κ ν) : ofItems d.items = d := by
  apply ext
  unfold ofItems
  rw [items_foldl_set (by simpa using d.nodup)]
  rfl

/-- Entries without a double key are the dictionary that is built from them. -/
theorem ofItems_of_nodup {items : List (κ × ν)} (h : (items.map Prod.fst).Nodup) :
    ofItems items = ⟨items, h⟩ := ofItems_items ⟨items, h⟩

end

end Dict
