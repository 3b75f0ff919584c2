import Vumi2.Lib.Dotted
import Vumi2.Runtime

/-!
# Loading a class by its path

Workers, middlewares, and the parts of the SMPP transport are named in the configuration by the
dotted paths of their classes. `class_from_string` imports the module of such a path, and takes the
class from it. A path that names nothing is the operator's mistake, and raises `InvalidWorkerClass`;
an error inside the module that is imported is raised as it is.

A missing module is told from a missing import of the module by its name: it is the module of the
path or a package that contains it (`classFromString_spec`).
-/

namespace Vumi2

open Text

/-- What `import_module` may raise. -/
inductive ImportExc where
  /-- A `ModuleNotFoundError`, with its `name` and its text. -/
  | moduleNotFoundError (name : Option Str) (text : Str)
  | other (e : PyExc)

/-- What `class_from_string` may raise. -/
inductive LoadExc where
  | invalidWorkerClass (text : Str)
  | indexError
  /-- What the import raised. -/
  | reraised (e : ImportExc)

/-- `_cfs_err`. -/
def cfsErr (class_path msg : Str) : LoadExc :=
  .invalidWorkerClass (str "Error loading '" ++ class_path ++ str "': " ++ msg)

/-- `str(e.name)`. -/
def missingName : Option Str → Str
  | some name => name
  | none => str "None"

/-- What becomes of a `ModuleNotFoundError`. -/
def handleNotFound (class_path module_path : Str) (name : Option Str) (text : Str) : LoadExc :=
  if missingName name = module_path then cfsErr class_path text
  else if (missingName name).isPrefixOf module_path = true then
    match module_path[(missingName name).length]? with
    | some c =>
      if c = ofChar '.' then cfsErr class_path text
      else .reraised (.moduleNotFoundError name text)
    | none => .indexError
  else .reraised (.moduleNotFoundError name text)

variable {Cls : Type} (import_module : Str → Except ImportExc (Str → Option Cls))

/-- `class_from_string`. A module is known by its attributes. -/
def classFromString (class_path : Str) : Except LoadExc Cls :=
  if class_path.all (fun c => c ≠ ofChar '.') = true then
    .error (cfsErr class_path (str "Invalid worker class"))
  else
    match import_module (Dotted.parents (ofChar '.') class_path) with
    | .error (.moduleNotFoundError name text) =>
      .error (handleNotFound class_path (Dotted.parents (ofChar '.') class_path) name text)
    | .error (.other e) => .error (.reraised (.other e))
    | .ok module =>
      match module (Dotted.lastPart (ofChar '.') class_path) with
      | none => .error (cfsErr class_path
          (str "No class named '" ++ Dotted.lastPart (ofChar '.') class_path ++ str "'"))
      | some cls => .ok cls

/-- A path without a dot. -/
theorem all_ne_dot_iff {class_path : Str} :
    class_path.all (fun c => c ≠ ofChar '.') = true ↔ ofChar '.' ∉ class_path := by
  rw [List.all_eq_true]
  constructor
  · intro hall hdot
    exact of_decide_eq_true (hall _ hdot) rfl
  · intro hdot c hc
    refine decide_eq_true ?_
    rintro rfl
    exact hdot hc

/-- The parts of a dotted name. -/
def nameParts (name : Str) : List Str := name.splitOn (ofChar '.')

/-- A missing module is one that contains the module of the path, or is that, if and only if its
parts come first among those of the module. The index is never out of range. -/
theorem handleNotFound_eq (class_path module_path : Str) (name : Option Str) (text : Str) :
    handleNotFound class_path module_path name text =
      if nameParts (missingName name) <+: nameParts module_path then cfsErr class_path text
      else .reraised (.moduleNotFoundError name text) := by
  unfold handleNotFound nameParts
  generalize missingName name = missing
  by_cases hancestor : module_path = missing ∨ ∃ rest, module_path = missing ++ ofChar '.' :: rest
  · -- The dotted prefix test of the source succeeds: the module itself, or a name with a dot behind
    -- it.
    rw [if_pos (Dotted.isAncestor_iff.1 hancestor)]
    obtain rfl | ⟨rest, rfl⟩ := hancestor
    · rw [if_pos rfl]
    · have hne : missing ≠ missing ++ ofChar '.' :: rest := by simp
      have hprefix : missing.isPrefixOf (missing ++ ofChar '.' :: rest) = true := by simp
      rw [if_neg hne, if_pos hprefix, List.getElem?_append_right le_rfl, Nat.sub_self]
      exact if_pos rfl
  · -- It fails on a name that only begins like a part, because the next character is no dot.
    rw [if_neg fun hprefix => hancestor (Dotted.isAncestor_iff.2 hprefix)]
    rw [if_neg fun heq => hancestor (.inl heq.symm)]
    split_ifs with hprefix
    · obtain ⟨rest, rfl⟩ := List.isPrefixOf_iff_prefix.1 hprefix
      rw [List.getElem?_append_right le_rfl, Nat.sub_self]
      cases rest with
      | nil => exact absurd (.inl (List.append_nil missing)) hancestor
      | cons c rest =>
        refine if_neg ?_
        rintro rfl
        exact hancestor (.inr ⟨rest, rfl⟩)
    · rfl

/-- A path is taken apart at its last dot. -/
theorem parts_of_path {class_path class_name : Str} {parents : List Str} (hparents : parents ≠ [])
    (hpath : nameParts class_path = parents ++ [class_name]) :
    ofChar '.' ∈ class_path ∧ nameParts (Dotted.parents (ofChar '.') class_path) = parents ∧
      Dotted.lastPart (ofChar '.') class_path = class_name := by
  have hdot : ofChar '.' ∈ class_path := by
    by_contra hnot
    unfold nameParts at hpath
    rw [List.splitOn_eq_singleton hnot] at hpath
    have hlength := congrArg List.length hpath
    rw [List.length_append, List.length_singleton, List.length_singleton] at hlength
    exact hparents (List.length_eq_zero_iff.1 (by omega))
  unfold nameParts at hpath ⊢
  rw [Dotted.splitOn_rsplit hdot] at hpath
  obtain ⟨hfirst, hlast⟩ := List.append_inj' hpath rfl
  exact ⟨hdot, hfirst, List.cons.inj hlast |>.1⟩

/-- Whatever the import of the module does, it is the module that is named by all parts of the path
but the last one, and the class is what is named by that. `InvalidWorkerClass` is raised when the
path has one part, when the module or a package that contains it is missing, and when the module has
no such class; everything else that the import raises is raised as it is. -/
theorem classFromString_spec (class_path : Str) :
    (ofChar '.' ∉ class_path → classFromString import_module class_path =
        .error (cfsErr class_path (str "Invalid worker class"))) ∧
      ∀ parents class_name, parents ≠ [] → nameParts class_path = parents ++ [class_name] →
        ∃ module_path, nameParts module_path = parents ∧
          (∀ module cls, import_module module_path = .ok module → module class_name = some cls →
            classFromString import_module class_path = .ok cls) ∧
          (∀ module, import_module module_path = .ok module → module class_name = none →
            classFromString import_module class_path =
              .error (cfsErr class_path (str "No class named '" ++ class_name ++ str "'"))) ∧
          (∀ name text, import_module module_path = .error (.moduleNotFoundError name text) →
            classFromString import_module class_path = .error
              (if nameParts (missingName name) <+: parents then cfsErr class_path text
              else .reraised (.moduleNotFoundError name text))) ∧
          ∀ e, import_module module_path = .error (.other e) →
            classFromString import_module class_path = .error (.reraised (.other e)) := by
  refine ⟨fun hdot => if_pos (all_ne_dot_iff.2 hdot), fun parents class_name hparents hpath => ?_⟩
  obtain ⟨hmem, hmodule, hlast⟩ := parts_of_path hparents hpath
  have hdot :
      ¬class_path.all (fun c => c ≠ ofChar '.') = true := fun hall => all_ne_dot_iff.1 hall hmem
  -- One case for each way the import can end.
  refine ⟨Dotted.parents (ofChar '.') class_path, hmodule, ?_, ?_, ?_, ?_⟩
  · intro module cls himport hcls
    rw [classFromString, if_neg hdot, himport, hlast]
    dsimp only
    rw [hcls]
  · intro module himport hcls
    rw [classFromString, if_neg hdot, himport, hlast]
    dsimp only
    rw [hcls]
  · intro name text himport
    rw [classFromString, if_neg hdot, himport]
    dsimp only
    rw [handleNotFound_eq, hmodule]
  · intro e himport
    rw [classFromString, if_neg hdot, himport]

/-- No package `a` is there. -/
def importsNoA : Str → Except ImportExc (Str → Option Unit) :=
  fun _ => .error (.moduleNotFoundError (some (str "a")) (str "No module named 'a'"))

/-- That is reported for a class in `a.b`. -/
theorem packageMissing_reported : classFromString importsNoA (str "a.b.C") =
    .error (cfsErr (str "a.b.C") (str "No module named 'a'")) := by
  obtain ⟨module_path, -, -, -, hnotFound, -⟩ := (classFromString_spec importsNoA (str "a.b.C")).2
    [str "a", str "b"] (str "C") (by decide) (by decide)
  rw [hnotFound _ _ rfl]
  exact congrArg _ (if_pos (by decide))

-- For a class in `ab` it is an import of that module that fails.
example : classFromString importsNoA (str "ab.C") =
    .error (.reraised (.moduleNotFoundError (some (str "a")) (str "No module named 'a'"))) := by
  rfl

end Vumi2
