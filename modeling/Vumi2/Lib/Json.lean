import Vumi2.Lib.Text

/-!
# JSON values

The values that a JSON document stands for, as Python's `json` reads them. An object is the list of
its members, in which the first member of a name counts. A float is kept as the text that Python
writes it as, since nothing here computes with one.
-/

open Text

/-- A JSON value. -/
inductive Json where
  | null
  | bool (b : Bool)
  | int (n : ℤ)
  | float (repr : Str)
  | string (s : Str)
  | array (elements : List Json)
  | object (members : List (Str × Json))
deriving Inhabited

namespace Json

/-- The members of an object. -/
abbrev Members : Type := List (Str × Json)

/-- The value of a member. -/
def Members.get? (ms : Members) (name : Str) : Option Json :=
  (ms.find? (fun m => m.1 = name)).map Prod.snd

/-- Sets a member: in place if there is one of the name, else at the end. -/
def Members.set (ms : Members) (name : Str) (v : Json) : Members :=
  if ms.any (fun m => m.1 = name) then ms.map (fun m => if m.1 = name then (name, v) else m)
  else ms ++ [(name, v)]

/-- The value of a member, or a default. -/
def Members.getD (ms : Members) (name : Str) (default : Json) : Json := (ms.get? name).getD default

/-- Takes a member out: its value, which is `null` if there is none, and the other members. -/
def Members.pop (ms : Members) (name : Str) : Json × Members :=
  (ms.getD name null, ms.filter fun m => m.1 ≠ name)

/-- Whether a value is `null`. -/
def isNone : Json → Bool
  | null => true
  | _ => false

/-- Whether Python takes the value as true. -/
def truthy : Json → Bool
  | null => false
  | bool b => b
  | int n => n ≠ 0
  | float r => r ≠ str "0.0" ∧ r ≠ str "-0.0"
  | string s => s ≠ []
  | array l => !l.isEmpty
  | object ms => !ms.isEmpty

/-- A name that no member has. -/
theorem Members.get?_eq_none {ms : Members} {name : Str} (h : name ∉ ms.map Prod.fst) :
    ms.get? name = none := by
  have hnone : ms.find? (fun m => m.1 = name) = none := by
    rw [List.find?_eq_none]
    intro m hm hname
    exact h (List.mem_map.2 ⟨m, hm, of_decide_eq_true hname⟩)
  rw [Members.get?, hnone]
  rfl

/-- A member that was set is found. -/
@[simp] theorem Members.get?_set_self (ms : Members) (name : Str) (v : Json) :
    (ms.set name v).get? name = some v := by
  rw [Members.get?, Members.set]
  split_ifs with h
  · induction ms with
    | nil => simp at h
    | cons m ms ih =>
      by_cases hm : m.1 = name
      · simp [hm]
      · simp only [List.any_cons, hm, decide_false, Bool.false_or] at h
        simpa [List.map_cons, List.find?_cons, hm] using ih h
  · have hnone : ms.find? (fun m => m.1 = name) = none := by
      rw [List.find?_eq_none]
      intro m hm hname
      exact h (List.any_eq_true.2 ⟨m, hm, hname⟩)
    simp [List.find?_append, hnone]

/-- Setting a member adds its name, if it is not there. -/
theorem Members.map_fst_set (ms : Members) (name : Str) (v : Json) :
    (ms.set name v).map Prod.fst = ms.map Prod.fst ∨
      (ms.set name v).map Prod.fst = ms.map Prod.fst ++ [name] := by
  rw [Members.set]
  split_ifs
  · refine .inl ?_
    rw [List.map_map]
    refine List.map_congr_left fun m _ => ?_
    by_cases hm : m.1 = name
    · simp [hm]
    · simp [hm]
  · refine .inr ?_
    rw [List.map_append]
    rfl

/-- Setting a member leaves the others. -/
theorem Members.get?_set_of_ne (ms : Members) {name other : Str} (v : Json) (h : other ≠ name) :
    (ms.set name v).get? other = ms.get? other := by
  rw [Members.get?, Members.get?, Members.set]
  split_ifs with hany
  · clear hany
    induction ms with
    | nil => rfl
    | cons m ms ih =>
      by_cases hm : m.1 = name
      · have hne : ¬ name = other := fun heq => h heq.symm
        have hne' : ¬ m.1 = other := by rwa [hm]
        simpa [List.map_cons, List.find?_cons, hm, hne] using ih
      · by_cases ho : m.1 = other
        · simp [ho, h]
        · simpa [List.map_cons, List.find?_cons, hm, ho] using ih
  · have hne : ¬ name = other := fun heq => h heq.symm
    simp [List.find?_append, hne]

end Json
