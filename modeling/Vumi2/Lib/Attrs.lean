import Mathlib.Data.List.Nodup
import Mathlib.Tactic.TypeStar
import Vumi2.Lib.Json

/-!
# Structuring and unstructuring of classes

What cattrs does with an attrs class. A `Hook` says how the values of a type are unstructured to
JSON values and structured from them. The fields of a class are put together with `Fields.ap`, from
the constructor on: unstructuring writes one member for each field, in their order; structuring
reads each member by the hook of its field, takes the default for a field whose member is missing,
and collects the errors of all of the fields.

`Restores` is the rule of the round trip: a class is restored if the hook of each field inverts.
-/

open Text

namespace Attrs

variable {ε ρ α β : Type}

/-- How the values of a type are unstructured and structured. -/
structure Hook (ε α : Type) where
  unstructure : α → Json
  restructure : Json → Except ε α

/-- Structuring undoes unstructuring, for the values that satisfy `p`. -/
def Hook.Inverts (h : Hook ε α) (p : α → Prop) : Prop :=
  ∀ a, p a → h.restructure (h.unstructure a) = .ok a

/-- `str`: any other value is converted. -/
def Hook.text (convert : Json → Str) : Hook ε Str where
  unstructure := .string
  restructure v :=
    match v with
    | .string s => .ok s
    | v => .ok (convert v)

/-- `dict`: any other value is converted, or refused. -/
def Hook.dict (convert : Json → Except ε Json.Members) : Hook ε Json.Members where
  unstructure := .object
  restructure v :=
    match v with
    | .object ms => .ok ms
    | v => convert v

/-- `int`: any other value is converted, or refused. -/
def Hook.int (convert : Json → Except ε ℤ) : Hook ε ℤ where
  unstructure := .int
  restructure v :=
    match v with
    | .int n => .ok n
    | v => convert v

/-- `T | None`. -/
def Hook.optional (h : Hook ε α) : Hook ε (Option α) where
  unstructure o := o.elim .null h.unstructure
  restructure v := if v.isNone = true then .ok none else (h.restructure v).map some

/-- Whether a JSON value is the value of a member of an enumeration. -/
def isValue (value : Option Str) (v : Json) : Bool :=
  match value, v with
  | some s, .string t => s = t
  | none, .null => true
  | _, _ => false

/-- An enumeration, by the values of its members; the value may be `None`. -/
def Hook.enum (error : ε) (members : List α) (value : α → Option Str) : Hook ε α where
  unstructure a := (value a).elim .null .string
  restructure v :=
    match members.find? fun a => isValue (value a) v with
    | some a => .ok a
    | none => .error error

/-- A text is structured as itself. -/
theorem Hook.text_inverts (convert : Json → Str) :
    (Hook.text convert : Hook ε Str).Inverts fun _ => True := fun _ _ => rfl

/-- A dictionary is structured as itself. -/
theorem Hook.dict_inverts (convert : Json → Except ε Json.Members) :
    (Hook.dict convert).Inverts fun _ => True := fun _ _ => rfl

/-- A value that is not written as `null` may be left out. -/
theorem Hook.Inverts.optional {h : Hook ε α} {p : α → Prop} (hinv : h.Inverts p)
    (hnull : ∀ a, p a → (h.unstructure a).isNone = false) :
    h.optional.Inverts fun o => ∀ a, o = some a → p a := by
  intro o ho
  cases o with
  | none => rfl
  | some a =>
    have hp := ho a rfl
    show (if (h.unstructure a).isNone = true then .ok none
      else (h.restructure (h.unstructure a)).map some) = .ok (some a)
    rw [hnull a hp, hinv a hp]
    rfl

/-- An enumeration whose members have values of their own. -/
theorem Hook.enum_inverts (error : ε) {members : List α} {value : α → Option Str}
    (hmembers : ∀ a, a ∈ members) (hvalues : (members.map value).Nodup) :
    (Hook.enum error members value).Inverts fun _ => True := by
  intro a _
  have hself : ∀ o : Option Str, isValue o (o.elim .null .string) = true := by
    intro o
    cases o with
    | none => rfl
    | some s => exact decide_eq_true rfl
  -- A value decides the member: the values differ.
  have hother : ∀ o o' : Option Str, isValue o (o'.elim .null .string) = true → o = o' := by
    intro o o' h
    cases o with
    | none => cases o' with
      | none => rfl
      | some t => cases h
    | some s => cases o' with
      | none => cases h
      | some t => exact congrArg some (of_decide_eq_true h)
  unfold Hook.enum
  dsimp only
  -- The search comes to a member of the same value, which is the same member.
  cases hfind : members.find? fun b => isValue (value b) ((value a).elim .null .string) with
  | none =>
    have hnot := List.find?_eq_none.1 hfind a (hmembers a)
    exact absurd (hself (value a)) hnot
  | some b =>
    have hvalue := List.find?_some hfind
    have hb : value b = value a := hother (value b) (value a) hvalue
    exact congrArg Except.ok
      (List.inj_on_of_nodup_map hvalues (List.mem_of_find?_eq_some hfind) (hmembers a) hb)

/-- The fields of a class `ρ` from which an `α` is made. -/
structure Fields (ε ρ α : Type) where
  write : ρ → Json.Members
  read : Json.Members → Except (List (Option Str × ε)) α

namespace Fields

/-- No field. -/
def pure (a : α) : Fields ε ρ α where
  write _ := []
  read _ := .ok a

/-- A field of this name, with the default if it has one. -/
def field (missing : ε) (name : Str) (hook : Hook ε α) (default : Option α) (get : ρ → α) :
    Fields ε ρ α where
  write r := [(name, hook.unstructure (get r))]
  read data :=
    match data.get? name with
    | some v => (hook.restructure v).mapError fun e => [(some name, e)]
    | none =>
      match default with
      | some a => .ok a
      | none => .error [(some name, missing)]

/-- Further fields. The errors of all of them are collected. -/
def ap (f : Fields ε ρ (α → β)) (x : Fields ε ρ α) : Fields ε ρ β where
  write r := f.write r ++ x.write r
  read data :=
    match f.read data, x.read data with
    | .ok g, .ok a => .ok (g a)
    | .ok _, .error es => .error es
    | .error es, .ok _ => .error es
    | .error es, .error es' => .error (es ++ es')

/-- The names of the members that are no fields. -/
def unknownNames (names : List Str) (data : Json.Members) : List Str :=
  (data.map Prod.fst).filter fun name => !(names.any fun known => known = name)

/-- The same fields, and no other member. -/
def only (f : Fields ε ρ α) (names : List Str) (forbidden : List Str → ε) : Fields ε ρ α where
  write := f.write
  read data :=
    if unknownNames names data = [] then f.read data
    else
      match f.read data with
      | .ok _ => .error [(none, forbidden (unknownNames names data))]
      | .error es => .error (es ++ [(none, forbidden (unknownNames names data))])

/-! ## What is read -/

/-- This is read of the fields. -/
def Reads (c : Fields ε ρ α) (data : Json.Members) (a : α) : Prop := c.read data = .ok a

/-- No field is read for a value that is there. -/
theorem reads_pure (data : Json.Members) (a : α) : (pure a : Fields ε ρ α).Reads data a := rfl

/-- What is read of a field: its value by the hook, or the default. -/
theorem reads_field_iff {missing : ε} {name : Str} {hook : Hook ε α} {default : Option α}
    {get : ρ → α} {data : Json.Members} {a : α} :
    (field missing name hook default get).Reads data a ↔
      match data.get? name with
      | some v => hook.restructure v = .ok a
      | none => default = some a := by
  unfold Reads field
  dsimp only
  cases data.get? name with
  | some v =>
    dsimp only
    cases hook.restructure v <;> simp [Except.mapError]
  | none => cases default <;> simp

/-- A field that is there, of a value that its hook accepts. -/
theorem reads_field {missing : ε} {name : Str} {hook : Hook ε α} {default : Option α}
    {get : ρ → α} {data : Json.Members} {v : Json} {a : α} (hget : data.get? name = some v)
    (hhook : hook.restructure v = .ok a) : (field missing name hook default get).Reads data a := by
  rw [reads_field_iff, hget]
  exact hhook

/-- A field that is not there, but has a default. -/
theorem reads_default {missing : ε} {name : Str} {hook : Hook ε α} {a : α} {get : ρ → α}
    {data : Json.Members} (hget : data.get? name = none) :
    (field missing name hook (some a) get).Reads data a := by
  rw [reads_field_iff, hget]

/-- A field with a default is read, if its value can be structured or is not there. -/
theorem exists_reads_of_default {missing : ε} {name : Str} {hook : Hook ε α} {a : α} {get : ρ → α}
    {data : Json.Members}
    (h : ∀ v, data.get? name = some v → ∃ b, hook.restructure v = .ok b) :
    ∃ b, (field missing name hook (some a) get).Reads data b := by
  cases hget : data.get? name with
  | none => exact ⟨a, reads_default hget⟩
  | some v =>
    obtain ⟨b, hb⟩ := h v hget
    exact ⟨b, reads_field hget hb⟩

/-- What is read of fields together is read of each. -/
theorem reads_ap_iff {f : Fields ε ρ (α → β)} {x : Fields ε ρ α} {data : Json.Members} {b : β} :
    (f.ap x).Reads data b ↔ ∃ g a, f.Reads data g ∧ x.Reads data a ∧ b = g a := by
  unfold Reads Fields.ap
  dsimp only
  cases f.read data with
  | error es => cases x.read data <;> simp
  | ok g => cases x.read data <;> simp [eq_comm]

/-- Fields are read one after the other. -/
theorem Reads.ap {f : Fields ε ρ (α → β)} {x : Fields ε ρ α} {data : Json.Members} {g : α → β}
    {a : α} (hf : f.Reads data g) (hx : x.Reads data a) : (f.ap x).Reads data (g a) :=
  reads_ap_iff.2 ⟨g, a, hf, hx, rfl⟩

/-- What goes wrong when fields are read: at least one error, and none that does not satisfy `p`. -/
def FailsWith (p : ε → Prop) (c : Fields ε ρ α) : Prop :=
  ∀ data es, c.read data = .error es → es ≠ [] ∧ ∀ e ∈ es, p e.2

/-- Where no field is read, nothing fails. -/
theorem failsWith_pure (p : ε → Prop) (a : α) : (pure a : Fields ε ρ α).FailsWith p :=
  fun _ _ h => nomatch h

/-- A field fails because it is missing, or because of its hook. -/
theorem failsWith_field {p : ε → Prop} {missing : ε} {name : Str} {hook : Hook ε α}
    {default : Option α} {get : ρ → α} (hmissing : p missing)
    (hhook : ∀ v e, hook.restructure v = .error e → p e) :
    (field missing name hook default get).FailsWith p := by
  intro data es h
  -- There is one error, of the hook or for the missing member.
  have hone : ∃ e, es = [(some name, e)] ∧ p e := by
    unfold field at h
    dsimp only at h
    cases hget : data.get? name with
    | some v =>
      rw [hget] at h
      dsimp only at h
      cases hv : hook.restructure v with
      | ok a =>
        rw [hv] at h
        cases h
      | error e =>
        rw [hv] at h
        exact ⟨e, (Except.error.inj h).symm, hhook v e hv⟩
    | none =>
      rw [hget] at h
      cases default with
      | some a => cases h
      | none => exact ⟨missing, (Except.error.inj h).symm, hmissing⟩
  obtain ⟨e, rfl, he⟩ := hone
  exact ⟨List.cons_ne_nil _ _, List.forall_mem_singleton.2 he⟩

/-- Fields that fail as they should do so together. -/
theorem FailsWith.ap {p : ε → Prop} {f : Fields ε ρ (α → β)} {x : Fields ε ρ α}
    (hf : f.FailsWith p) (hx : x.FailsWith p) : (f.ap x).FailsWith p := by
  intro data es h
  unfold Fields.ap at h
  dsimp only at h
  -- The exceptions of both sides are put together.
  cases hreadf : f.read data with
  | ok g =>
    cases hreadx : x.read data with
    | ok a =>
      rw [hreadf, hreadx] at h
      cases h
    | error es' =>
      rw [hreadf, hreadx] at h
      obtain rfl := Except.error.inj h
      exact hx data _ hreadx
  | error es' =>
    obtain ⟨hne, hall⟩ := hf data _ hreadf
    cases hreadx : x.read data with
    | ok a =>
      rw [hreadf, hreadx] at h
      obtain rfl := Except.error.inj h
      exact ⟨hne, hall⟩
    | error es'' =>
      rw [hreadf, hreadx] at h
      obtain rfl := Except.error.inj h
      refine ⟨List.append_ne_nil_of_left_ne_nil hne _, fun e he => ?_⟩
      rcases List.mem_append.1 he with he | he
      · exact hall e he
      · exact (hx data _ hreadx).2 e he

/-- For a value that is there nothing is written. -/
theorem write_pure (a : α) (r : ρ) : (pure a : Fields ε ρ α).write r = [] := rfl

/-- A field is written as one member. -/
theorem write_field (missing : ε) (name : Str) (hook : Hook ε α) (default : Option α) (get : ρ → α)
    (r : ρ) : (field missing name hook default get).write r = [(name, hook.unstructure (get r))] :=
  rfl

/-- Fields are written one after the other. -/
theorem write_ap (f : Fields ε ρ (α → β)) (x : Fields ε ρ α) (r : ρ) :
    (f.ap x).write r = f.write r ++ x.write r := rfl

/-- Data that has the members that are written for `r` is read as what `get` makes of `r`. -/
def Restores (c : Fields ε ρ α) (r : ρ) (a : α) : Prop :=
  ∀ data : Json.Members, (∀ m ∈ c.write r, data.get? m.1 = some m.2) → c.read data = .ok a

/-- A value that is there is always read. -/
theorem restores_pure (r : ρ) (a : α) : (pure a : Fields ε ρ α).Restores r a := fun _ _ => rfl

/-- A field is read back from its member if its hook undoes what it did. -/
theorem restores_field {missing : ε} {name : Str} {hook : Hook ε α} {default : Option α}
    {get : ρ → α} {p : α → Prop} (hook_inverts : hook.Inverts p) {r : ρ} (hp : p (get r)) :
    (field missing name hook default get).Restores r (get r) := by
  intro data hdata
  have hget : data.get? name = some (hook.unstructure (get r)) :=
    hdata (name, hook.unstructure (get r)) (List.mem_singleton.2 rfl)
  unfold field
  dsimp only
  rw [hget]
  dsimp only
  rw [hook_inverts (get r) hp]
  rfl

/-- Fields that are read back are so together. -/
theorem Restores.ap {f : Fields ε ρ (α → β)} {x : Fields ε ρ α} {r : ρ} {g : α → β} {a : α}
    (hf : f.Restores r g) (hx : x.Restores r a) : (f.ap x).Restores r (g a) := by
  intro data hdata
  have hreadf := hf data fun m hm => hdata m (List.mem_append_left _ hm)
  have hreadx := hx data fun m hm => hdata m (List.mem_append_right _ hm)
  unfold Fields.ap
  dsimp only
  rw [hreadf, hreadx]

/-- The value of a member whose name occurs once. -/
theorem get?_of_nodup {ms : Json.Members} (h : (ms.map Prod.fst).Nodup) {m : Str × Json}
    (hm : m ∈ ms) : ms.get? m.1 = some m.2 := by
  unfold Json.Members.get?
  cases hfind : ms.find? fun n => n.1 = m.1 with
  | none => exact absurd (decide_eq_true rfl) (List.find?_eq_none.1 hfind m hm)
  | some n =>
    have hname : n.1 = m.1 := by simpa using List.find?_some hfind
    have heq : n = m := List.inj_on_of_nodup_map h (List.mem_of_find?_eq_some hfind) hm hname
    rw [heq]
    rfl

/-- What was written is read back, if the fields have names of their own. -/
theorem Restores.read_write {c : Fields ε ρ α} {r : ρ} {a : α} (h : c.Restores r a)
    (hnames : ((c.write r).map Prod.fst).Nodup) : c.read (c.write r) = .ok a :=
  h _ fun _ hm => get?_of_nodup hnames hm

end Fields

end Attrs
