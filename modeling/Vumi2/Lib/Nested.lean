import Vumi2.Lib.Dict

/-!
# Nested dictionaries

A tree of dictionaries, such as a document of settings stands for: a value is a leaf or a mapping of
keys to values. It is finite, so it holds no mapping that contains itself. `at?` looks up what is at
a path. In a tree that is `Keyed`, no mapping has a key twice, as is so of every dictionary.
-/

/-- A leaf, or a mapping of keys to trees. -/
inductive Nested (κ α : Type) where
  | leaf (a : α)
  | mapping (items : List (κ × Nested κ α))

namespace Nested

variable {κ α : Type}

/-- No mapping has a key twice. -/
inductive Keyed : Nested κ α → Prop where
  | leaf (a : α) : Keyed (leaf a)
  | mapping {items : List (κ × Nested κ α)} (keys : (items.map Prod.fst).Nodup)
    (values : ∀ e ∈ items, Keyed e.2) : Keyed (mapping items)

variable [DecidableEq κ]

/-- What is at a path. -/
def at? : List κ → Nested κ α → Option (Nested κ α)
  | [], t => some t
  | k :: path, mapping items => ((Dict.ofItems items).get? k).bind (at? path)
  | _ :: _, leaf _ => none

/-- Nothing is above the path of no keys. -/
@[simp] theorem at?_nil (t : Nested κ α) : at? [] t = some t := by
  cases t with
  | leaf a => rfl
  | mapping items => rfl

/-- The path of no keys leads nowhere. -/
theorem bind_at?_nil (o : Option (Nested κ α)) : o.bind (at? []) = o := by
  cases o with
  | none => rfl
  | some t => rw [Option.bind_some, at?_nil]

/-- At a path into a dictionary is what is at the rest of it, in the value of its first key. -/
theorem at?_cons_mapping (k : κ) (path : List κ) (d : Dict κ (Nested κ α)) :
    at? (k :: path) (mapping d.items) = (d.get? k).bind (at? path) := by
  show ((Dict.ofItems d.items).get? k).bind (at? path) = _
  rw [Dict.ofItems_items]

/-- The entries of a mapping may be made into a dictionary first. -/
theorem at?_ofItems {path : List κ} (h : path ≠ []) (items : List (κ × Nested κ α)) :
    at? path (mapping (Dict.ofItems items).items) = at? path (mapping items) := by
  cases path with
  | nil => exact absurd rfl h
  | cons k path =>
    rw [at?_cons_mapping]
    rfl

end Nested
