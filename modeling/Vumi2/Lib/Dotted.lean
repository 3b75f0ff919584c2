import Mathlib.Data.List.DropRight
import Mathlib.Tactic.TypeStar

/-!
# Dotted names

A name is made of parts with a separator between them, as `a.b.c` is. `rsplit` splits it before its
last part. A name is that of an ancestor if its parts come first among those of the other name
(`isAncestor_iff`).
-/

namespace Dotted

variable {α : Type*} [DecidableEq α]

/-- What comes after the last separator. -/
def lastPart (sep : α) (name : List α) : List α := name.rtakeWhile (· ≠ sep)

/-- What comes before it. -/
def parents (sep : α) (name : List α) : List α := (name.rdropWhile (· ≠ sep)).dropLast

variable {sep : α} {name : List α}

/-- The last part of a name has no separator in it. -/
theorem notMem_lastPart (sep : α) (name : List α) : sep ∉ lastPart sep name := by
  intro h
  have hne := List.mem_rtakeWhile_imp h
  simp at hne

/-- A name with a separator is split there. -/
theorem rsplit (h : sep ∈ name) : parents sep name ++ sep :: lastPart sep name = name := by
  have hnonempty : name.rdropWhile (· ≠ sep) ≠ [] := by
    intro hnil
    have hne := List.rdropWhile_eq_nil_iff.1 hnil sep h
    simp at hne
  have hlast : (name.rdropWhile (· ≠ sep)).getLast hnonempty = sep := by
    simpa using List.rdropWhile_last_not (· ≠ sep) name hnonempty
  calc parents sep name ++ sep :: lastPart sep name
      _ = (parents sep name ++ [sep]) ++ lastPart sep name := List.append_cons _ _ _
      _ = name.rdropWhile (· ≠ sep) ++ name.rtakeWhile (· ≠ sep) := by
        have hlast' := List.dropLast_append_getLast hnonempty
        rw [hlast] at hlast'
        rw [parents, lastPart, hlast']
      _ = name := List.rdropWhile_append_rtakeWhile

/-- The last part is the last of the parts. -/
theorem splitOn_rsplit (h : sep ∈ name) :
    name.splitOn sep = (parents sep name).splitOn sep ++ [lastPart sep name] := by
  have hsplit := congrArg (List.splitOn sep) (rsplit h)
  rw [List.splitOn_append_cons_self, List.splitOn_eq_singleton (notMem_lastPart sep name)] at hsplit
  exact hsplit.symm

omit [DecidableEq α] in
/-- Two names joined and then put together are the joined list. -/
theorem intercalate_append (sep : α) {names names' : List (List α)} (h : names ≠ [])
    (h' : names' ≠ []) : [sep].intercalate (names ++ names') =
      [sep].intercalate names ++ sep :: [sep].intercalate names' := by
  induction names with
  | nil => exact absurd rfl h
  | cons name names ih =>
    cases names with
    | nil =>
      rw [List.singleton_append, List.intercalate_cons_of_ne_nil h', List.intercalate_singleton,
        List.append_assoc]
      rfl
    | cons next names =>
      have hcons := ih (List.cons_ne_nil next names)
      rw [List.cons_append, List.cons_append, List.intercalate_cons_cons, ← List.cons_append, hcons,
        List.intercalate_cons_cons]
      simp

/-- A name is another one, or continues after it with a separator, if and only if the parts of the
other one come first among its parts. -/
theorem isAncestor_iff {ancestor : List α} :
    (name = ancestor ∨ ∃ rest, name = ancestor ++ sep :: rest) ↔
      ancestor.splitOn sep <+: name.splitOn sep := by
  constructor
  · rintro (rfl | ⟨rest, rfl⟩)
    · exact List.prefix_rfl
    · rw [List.splitOn_append_cons_self]
      exact List.prefix_append _ _
  · rintro ⟨parts, hparts⟩
    have hname : [sep].intercalate (ancestor.splitOn sep ++ parts) = name := by
      rw [hparts, List.intercalate_splitOn]
    cases parts with
    | nil =>
      rw [List.append_nil, List.intercalate_splitOn] at hname
      exact .inl hname.symm
    | cons part parts =>
      refine .inr ⟨[sep].intercalate (part :: parts), ?_⟩
      rw [← hname, intercalate_append sep (List.splitOn_ne_nil sep ancestor)
        (List.cons_ne_nil part parts), List.intercalate_splitOn]

end Dotted
