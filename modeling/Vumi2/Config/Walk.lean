import Vumi2.Config.Layers

/-!
# What a walk reads

`walk_config_class` asks a source for the value of each path of a class. The result has a dictionary
for each section, and at the path of a value what the source has for it (`at?_walked`). So it holds
one value and nothing else exactly if the source has that value for its path, and none for the
others (`holdsOnly_walked_iff`).
-/

namespace Vumi2

open Text Nested

variable {α : Type} {cls : ConfigFields} {path : List Str}

/-! ## Paths of a class -/

/-- A path is a leaf's if its first name is one, or leads to a class where the rest is. -/
theorem isLeaf_cons {name : Str} : IsLeaf cls (name :: path) ↔
    cls.field? name = some .value ∧ path = [] ∨
      ∃ sub, cls.field? name = some (.nested sub) ∧ IsLeaf sub path := by
  rw [IsLeaf]
  cases cls.field? name with
  | none => simp
  | some t =>
    cases t with
    | value => simp
    | nested sub => simp

/-- The path of a section of a class, or of the class itself. -/
def IsSection : ConfigFields → List Str → Prop
  | _, [] => True
  | cls, name :: path =>
    match cls.field? name with
    | some (.nested sub) => IsSection sub path
    | _ => False

/-! ## The dictionaries of a walk -/

variable {κ : Type} [DecidableEq κ] {fn : Str → List Str → PyLeaf α} {pre : List Str}

/-- The dictionary of a walk has the pairs of the walk, as no key comes twice. -/
theorem get?_walk (h : cls.Named) {k : Key κ} {v : Config κ α} :
    (Dict.ofItems (walkConfigClass fn pre cls)).get? k = some v ↔
      (k, v) ∈ walkConfigClass fn pre cls := by
  rw [Dict.get?_eq_some, Dict.ofItems_of_nodup (keys_walkConfigClass h)]

/-- A field that is no section has the value that is given. -/
theorem get?_walk_value (h : cls.Named) {name : Str} (hname : cls.field? name = some .value) :
    (Dict.ofItems (walkConfigClass fn pre cls)).get? (.name name) =
      (given (fn name pre) : Option (Config κ α)) := by
  ext v
  rw [get?_walk h, mem_walkConfigClass h]
  constructor
  · rintro (⟨name', v', -, hv, heq⟩ | ⟨name', sub, hsub, heq⟩)
    · cases heq
      exact hv
    · cases heq
      rw [hname] at hsub
      cases hsub
  · intro hv
    exact .inl ⟨name, v, hname, hv, rfl⟩

/-- A section has the values of its own fields. -/
theorem get?_walk_nested (h : cls.Named) {name : Str} {sub : ConfigFields}
    (hname : cls.field? name = some (.nested sub)) :
    (Dict.ofItems (walkConfigClass fn pre cls)).get? (.name name) =
      some (.mapping (walkConfigClass fn (pre ++ [name]) sub) : Config κ α) := by
  rw [get?_walk h, mem_walkConfigClass h]
  exact .inr ⟨name, sub, hname, rfl⟩

/-- Nothing else is there. -/
theorem get?_walk_other (h : cls.Named) {k : Key κ} (hk : cls.typeOf k = none) :
    (Dict.ofItems (walkConfigClass (α := α) fn pre cls)).get? k = none := by
  rw [Dict.get?_eq_none]
  intro hmem
  unfold Dict.keys at hmem
  rw [Dict.ofItems_of_nodup (keys_walkConfigClass h)] at hmem
  obtain ⟨name, rfl, hname⟩ := exists_field_of_mem h hmem
  exact hname hk

/-- What `walk_config_class` makes of the values that a source gives for their paths. -/
def walked (κ : Type) (source : List Str → PyLeaf α) (pre : List Str) (cls : ConfigFields) :
    Config κ α := .mapping (walkConfigClass (fun name pre => source (pre ++ [name])) pre cls)

/-- A value that was given is a leaf and has nothing below it. -/
theorem given_bind {v a : PyLeaf α} {keys : List (Key κ)} :
    (given v).bind (at? keys) = some (.leaf a : Config κ α) ↔
      keys = [] ∧ given v = some (.leaf a : Config κ α) := by
  cases keys with
  | nil =>
    rw [bind_at?_nil]
    simp
  | cons k keys =>
    refine iff_of_false ?_ nofun
    cases v with
    | none => nofun
    | string s => nofun
    | other b => nofun

omit [DecidableEq κ] in
/-- The path of a value ends at its first name, or goes on in a section. -/
theorem exists_isLeaf_cons {k : Key κ} {keys : List (Key κ)} {p : List Str → Prop} :
    (∃ path, k :: keys = path.map .name ∧ IsLeaf cls path ∧ p path) ↔
      ∃ name, k = .name name ∧
        (cls.field? name = some .value ∧ keys = [] ∧ p [name] ∨
          ∃ sub, cls.field? name = some (.nested sub) ∧
            ∃ path, keys = path.map .name ∧ IsLeaf sub path ∧ p (name :: path)) := by
  constructor
  · rintro ⟨path, hkeys, hpath, hp⟩
    obtain ⟨name, path, rfl⟩ := List.exists_cons_of_ne_nil hpath.ne_nil
    obtain ⟨hk, hrest⟩ := List.cons.inj hkeys
    rcases isLeaf_cons.1 hpath with ⟨hname, rfl⟩ | ⟨sub, hname, hpath⟩
    · exact ⟨name, hk, .inl ⟨hname, hrest, hp⟩⟩
    · exact ⟨name, hk, .inr ⟨sub, hname, path, hrest, hpath, hp⟩⟩
  · rintro ⟨name, rfl, ⟨hname, rfl, hp⟩ | ⟨sub, hname, path, rfl, hpath, hp⟩⟩
    · exact ⟨[name], rfl, isLeaf_cons.2 (.inl ⟨hname, rfl⟩), hp⟩
    · exact ⟨name :: path, rfl, isLeaf_cons.2 (.inr ⟨sub, hname, hpath⟩), hp⟩

/-- At a leaf of the walk is a value that is given for its path. -/
theorem at?_walked (source : List Str → PyLeaf α) (pre : List Str) (h : cls.Named)
    {keys : List (Key κ)} {a : PyLeaf α} : at? keys (walked κ source pre cls) = some (.leaf a) ↔
      ∃ path, keys = path.map .name ∧ IsLeaf cls path ∧
        given (source (pre ++ path)) = some (.leaf a : Config κ α) := by
  induction keys generalizing cls pre with
  | nil =>
    rw [at?_nil]
    refine iff_of_false nofun ?_
    rintro ⟨path, hnil, hpath, -⟩
    exact hpath.ne_nil (List.map_eq_nil_iff.1 hnil.symm)
  | cons k keys ih =>
    unfold walked
    rw [at?, exists_isLeaf_cons]
    cases hk : cls.typeOf k with
    | none =>
      rw [get?_walk_other h hk]
      refine iff_of_false nofun ?_
      rintro ⟨name, rfl, ⟨hname, -⟩ | ⟨sub, hname, -⟩⟩
      · exact absurd (hk.symm.trans hname) nofun
      · exact absurd (hk.symm.trans hname) nofun
    | some t =>
      cases k with
      | other k => cases hk
      | name name =>
        cases t with
        | value =>
          -- The path ends here.
          rw [get?_walk_value h hk, given_bind]
          constructor
          · rintro ⟨hnil, hv⟩
            exact ⟨name, rfl, .inl ⟨hk, hnil, hv⟩⟩
          · rintro ⟨_, ⟨⟩, ⟨-, hnil, hv⟩ | ⟨sub, hsub, -⟩⟩
            · exact ⟨hnil, hv⟩
            · exact absurd (hk.symm.trans hsub) nofun
        | nested sub =>
          -- It goes on in the section.
          have hsection := ih (pre ++ [name]) (h.nested hk)
          simp only [List.append_assoc, List.singleton_append] at hsection
          unfold walked at hsection
          rw [get?_walk_nested h hk, Option.bind_some, hsection]
          constructor
          · intro hrest
            exact ⟨name, rfl, .inr ⟨sub, hk, hrest⟩⟩
          · rintro ⟨_, ⟨⟩, ⟨hvalue, -⟩ | ⟨sub', hsub, hrest⟩⟩
            · exact absurd (hk.symm.trans hvalue) nofun
            · cases hk.symm.trans hsub
              exact hrest

/-- At a section of the walk is a dictionary. -/
theorem at?_walked_of_isSection (source : List Str → PyLeaf α) (pre : List Str) (h : cls.Named)
    {names : List Str} (hnames : IsSection cls names) :
    ∃ items, at? (names.map .name) (walked κ source pre cls) = some (.mapping items) := by
  induction names generalizing cls pre with
  | nil => exact ⟨_, at?_nil _⟩
  | cons name names ih =>
    rw [IsSection] at hnames
    cases hname : cls.field? name with
    | none =>
      rw [hname] at hnames
      exact absurd hnames not_false
    | some t =>
      rw [hname] at hnames
      cases t with
      | value => exact absurd hnames not_false
      | nested sub =>
        obtain ⟨items, hitems⟩ := ih (pre ++ [name]) (h.nested hname) hnames
        refine ⟨items, ?_⟩
        unfold walked at hitems ⊢
        rw [List.map_cons, at?, get?_walk_nested h hname, Option.bind_some, hitems]

omit [DecidableEq κ] in
/-- A value is given if it is not None. -/
theorem given_eq_leaf {v a : PyLeaf α} :
    given v = some (.leaf a : Config κ α) ↔ v = a ∧ a ≠ .none := by
  cases v with
  | none =>
    refine iff_of_false nofun ?_
    rintro ⟨rfl, hne⟩
    exact hne rfl
  | string s =>
    constructor
    · intro heq
      cases heq
      exact ⟨rfl, nofun⟩
    · rintro ⟨rfl, -⟩
      rfl
  | other b =>
    constructor
    · intro heq
      cases heq
      exact ⟨rfl, nofun⟩
    · rintro ⟨rfl, -⟩
      rfl

/-- A configuration of a class whose only leaf is a value at a path. -/
structure HoldsOnly (cls : ConfigFields) (path : List Str) (value : Str) (config : Config κ α) :
    Prop where
  leaf : ∀ (keys : List (Key κ)) (a : PyLeaf α),
    at? keys config = some (.leaf a) ↔ keys = path.map .name ∧ a = .string value
  /-- The dictionaries of the sections are there. -/
  sections : ∀ names, IsSection cls names →
    ∃ items, at? (names.map .name) config = some (.mapping items)

/-- A walk leaves one value exactly if its source gives that value for the path, and none for the
paths of other values. -/
theorem holdsOnly_walked_iff {source : List Str → PyLeaf α} (h : cls.Named)
    (hpath : IsLeaf cls path) {value : Str} :
    HoldsOnly cls path value (walked κ source pre cls) ↔ source (pre ++ path) = .string value ∧
      ∀ other, IsLeaf cls other → other ≠ path → source (pre ++ other) = .none := by
  have hkey : Function.Injective (Key.name (κ := κ)) := fun a b heq => Key.name.inj heq
  constructor
  · intro honly
    have hleaf := (honly.leaf (path.map .name) (.string value)).2 ⟨rfl, rfl⟩
    obtain ⟨path', heq, -, hv⟩ := (at?_walked source pre h).1 hleaf
    cases List.map_injective_iff.2 hkey heq
    refine ⟨(given_eq_leaf.1 hv).1, fun other hother hne => ?_⟩
    by_contra hsome
    -- A value for another path would be a leaf of its own.
    have hleaf' := (at?_walked (κ := κ) source pre h).2
      ⟨other, rfl, hother, given_eq_leaf.2 ⟨rfl, hsome⟩⟩
    exact hne (List.map_injective_iff.2 hkey ((honly.leaf _ _).1 hleaf').1)
  · rintro ⟨hsource, hothers⟩
    refine ⟨fun keys a => ?_, fun names => at?_walked_of_isSection source pre h⟩
    rw [at?_walked source pre h]
    constructor
    · rintro ⟨path', rfl, hpath', hv⟩
      obtain ⟨rfl, hne⟩ := given_eq_leaf.1 hv
      by_cases heq : path' = path
      · exact ⟨by rw [heq], by rw [heq, hsource]⟩
      · exact absurd (hothers path' hpath' heq) hne
    · rintro ⟨rfl, rfl⟩
      exact ⟨path, rfl, hpath, given_eq_leaf.2 ⟨hsource, nofun⟩⟩

end Vumi2
