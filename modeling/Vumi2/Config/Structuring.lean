import Vumi2.Config.Walk
import Vumi2.Lib.Integers

/-!
# Structuring the configuration

`structure` of `config.py`, for classes whose values are of the types `str`, `int` and `bool`, and
`load_config` with it. `cattrs` calls the type of a field on the value that is given, which may be a
string as well as what the type stands for: `int("10")` is 10, and `bool("false")` is true.

`objectOf` makes an object from what each leaf of the class is given, and `loadConfig_eq` says that
`load_config` does that with what the sources give.
-/

namespace Vumi2

open Text Nested

/-! ## Calling a type -/

/-- The types of the leaves. -/
inductive LeafType where
  | str
  | int
  | bool
deriving DecidableEq, Repr

/-- A value of one of these types. -/
inductive PyValue where
  | string (s : Str)
  | int (n : ℤ)
  | bool (b : Bool)
deriving DecidableEq

/-- The type of a value. -/
def PyValue.type : PyValue → LeafType
  | string _ => .str
  | int _ => .int
  | bool _ => .bool

/-- A value of a document that is no string, no dictionary and not `None`. -/
inductive Scalar (α : Type) where
  | int (n : ℤ)
  | bool (b : Bool)
  | other (a : α)

variable {κ α : Type}

/-- What structuring makes of values that a class with these leaves has no use for. -/
structure TypeCalls (κ α : Type) where
  /-- A type called on a value of another type. -/
  other : LeafType → α → Except PyExc PyValue
  /-- `str(d)`. -/
  strDict : List (Key κ × Config κ (Scalar α)) → Str
  /-- A section that is no dictionary. -/
  notDict : PyLeaf (Scalar α) → Except PyExc (Nested Str PyValue)

/-- What `str`, `int` or `bool` makes of a value. -/
def TypeCalls.call (C : TypeCalls κ α) : LeafType → Config κ (Scalar α) → Except PyExc PyValue
  | .str, .leaf .none => .ok (.string (Text.str "None"))
  | .str, .leaf (.string s) => .ok (.string s)
  | .str, .leaf (.other (.int n)) =>
    if (decimal n.natAbs).length ≤ Json.maxStrDigits then .ok (.string (Json.intText n))
    else .error .valueError
  | .str, .leaf (.other (.bool b)) =>
    .ok (.string (if b then Text.str "True" else Text.str "False"))
  | .str, .mapping items => .ok (.string (C.strDict items))
  | .int, .leaf .none => .error .typeError
  | .int, .leaf (.string s) =>
    match intOfText s with
    | some n => .ok (.int n)
    | none => .error .valueError
  | .int, .leaf (.other (.int n)) => .ok (.int n)
  | .int, .leaf (.other (.bool b)) => .ok (.int (if b then 1 else 0))
  | .int, .mapping _ => .error .typeError
  | .bool, .leaf .none => .ok (.bool false)
  | .bool, .leaf (.string s) => .ok (.bool !s.isEmpty)
  | .bool, .leaf (.other (.int n)) => .ok (.bool (n != 0))
  | .bool, .leaf (.other (.bool b)) => .ok (.bool b)
  | .bool, .mapping items => .ok (.bool !items.isEmpty)
  | type, .leaf (.other (.other a)) => C.other type a

/-! ## Classes and objects -/

/-- An instance of a class: the values of its fields, and the instances of its sections. -/
abbrev ConfigObject : Type := Nested Str PyValue

/-- What `fields(cls)` lists, with the types and the defaults. -/
inductive TypedFields where
  | nil
  | value (name : Str) (type : LeafType) (default : Option PyValue) (rest : TypedFields)
  | nested (name : Str) (fields : TypedFields) (default : Option ConfigObject) (rest : TypedFields)

namespace TypedFields

/-- What the walk sees of the fields. -/
def erase : TypedFields → ConfigFields
  | nil => .nil
  | value name _ _ rest => .value name rest.erase
  | nested name fields _ rest => .nested name fields.erase rest.erase

/-- A value of a class: its path, its type and its default. -/
structure Leaf where
  path : List Str
  type : LeafType
  default : Option PyValue

/-- The leaves of a class, after a prefix. -/
def leaves : List Str → TypedFields → List Leaf
  | _, nil => []
  | pre, value name type default rest => ⟨pre ++ [name], type, default⟩ :: leaves pre rest
  | pre, nested name fields _ rest => leaves (pre ++ [name]) fields ++ leaves pre rest

end TypedFields

/-- An attrs class with these leaves. -/
structure TypedClass where
  fields : TypedFields
  named : fields.erase.Named

/-- What the walk sees of a class. -/
def TypedClass.erase (cls : TypedClass) : ConfigClass := ⟨cls.fields.erase, cls.named⟩

/-- The default of a field that is not there. -/
def defaultOrRaise {β : Type} : Option β → Except PyExc β
  | some b => .ok b
  | none => .error .keyError

variable [DecidableEq κ]

/-- The fields of an object, made of a dictionary. Other keys of the dictionary do not count. -/
def structureFields (C : TypeCalls κ α) :
    TypedFields → Dict (Key κ) (Config κ (Scalar α)) → Except PyExc (List (Str × ConfigObject))
  | .nil, _ => .ok []
  | .value name type default rest, d =>
    (match d.get? (.name name) with
      | some v => C.call type v
      | none => defaultOrRaise default) >>= fun v =>
        (structureFields C rest d) >>= fun items => .ok ((name, .leaf v) :: items)
  | .nested name fields default rest, d =>
    (match d.get? (.name name) with
      | some (.mapping sub) => (structureFields C fields (.ofItems sub)).map Nested.mapping
      | some (.leaf a) => C.notDict a
      | none => defaultOrRaise default) >>= fun v =>
        (structureFields C rest d) >>= fun items => .ok ((name, v) :: items)

/-- `structure`. Whatever is wrong with the fields is raised as one error. The attempt without extra
keys that comes first is for the log only. -/
def structureClass (C : TypeCalls κ α) (config : Dict (Key κ) (Config κ (Scalar α)))
    (cls : TypedClass) : Except PyExc ConfigObject :=
  ((structureFields C cls.fields config).map Nested.mapping).mapError fun _ => .classValidationError

/-- Where a configuration is loaded from: `os.environ`, what `yaml.safe_load` makes of the file at a
path, and the attributes of the parsed arguments. -/
structure ConfigInputs (κ α : Type) where
  environ : Str → Option Str
  safeLoad : Str → Loaded κ (Scalar α)
  cli : Str → PyLeaf (Scalar α)

/-- `load_config`. -/
def loadConfig (C : TypeCalls κ α) (upper : Str → Str) (cls : TypedClass)
    (inputs : ConfigInputs κ α) : Except PyExc ConfigObject :=
  (configDict upper inputs.environ inputs.safeLoad cls.erase inputs.cli) >>= fun config =>
    structureClass C config cls

/-! ## The object of the values of the leaves -/

open TypedFields

/-- The fields of an object, made of a value for each leaf. There is none if a leaf has no value. -/
def objectOf (f : Leaf → Option PyValue) :
    List Str → TypedFields → Option (List (Str × ConfigObject))
  | _, .nil => some []
  | pre, .value name type default rest =>
    (f ⟨pre ++ [name], type, default⟩).bind fun v =>
      (objectOf f pre rest).map fun items => (name, .leaf v) :: items
  | pre, .nested name fields _ rest =>
    (objectOf f (pre ++ [name]) fields).bind fun sub =>
      (objectOf f pre rest).map fun items => (name, .mapping sub) :: items

section

variable {f g : Leaf → Option PyValue}

/-- There is no object exactly if some leaf has no value. -/
theorem objectOf_eq_none_iff (pre : List Str) (fields : TypedFields) :
    objectOf f pre fields = none ↔ ∃ l ∈ fields.leaves pre, f l = none := by
  induction fields generalizing pre with
  | nil => simp [objectOf, leaves]
  | value name type default rest ih =>
    rw [objectOf, leaves, List.exists_mem_cons_iff, ← ih]
    cases f ⟨pre ++ [name], type, default⟩ with
    | none => simp
    | some v => simp
  | nested name fields _ rest ihfields ihrest =>
    have happend : (∃ l ∈ leaves (pre ++ [name]) fields ++ leaves pre rest, f l = none) ↔
        (∃ l ∈ leaves (pre ++ [name]) fields, f l = none) ∨ ∃ l ∈ leaves pre rest, f l = none := by
      simp only [List.mem_append, or_and_right, exists_or]
    rw [objectOf, leaves, happend, ← ihfields, ← ihrest]
    cases objectOf f (pre ++ [name]) fields with
    | none => simp
    | some sub => simp

/-- The object depends on the values of the leaves alone. -/
theorem objectOf_congr {pre : List Str} {fields : TypedFields}
    (h : ∀ l ∈ fields.leaves pre, f l = g l) : objectOf f pre fields = objectOf g pre fields := by
  induction fields generalizing pre with
  | nil => rfl
  | value name type default rest ih =>
    rw [leaves] at h
    obtain ⟨hfirst, hrest⟩ := List.forall_mem_cons.1 h
    rw [objectOf, objectOf, hfirst, ih hrest]
  | nested name fields _ rest ihfields ihrest =>
    rw [leaves] at h
    obtain ⟨hfields, hrest⟩ := List.forall_mem_append.1 h
    rw [objectOf, objectOf, ihfields hfields, ihrest hrest]

/-- The first field of an object, and the others. -/
theorem bind_cons_eq_some_iff {β : Type} {x : Option β} {y : Option (List (Str × ConfigObject))}
    {name : Str} {wrap : β → ConfigObject} {items : List (Str × ConfigObject)} :
    (x.bind fun b => y.map fun rest => (name, wrap b) :: rest) = some items ↔
      ∃ b rest, x = some b ∧ y = some rest ∧ items = (name, wrap b) :: rest := by
  constructor
  · intro h
    obtain ⟨b, hb, h⟩ := Option.bind_eq_some_iff.1 h
    obtain ⟨rest, hrest, rfl⟩ := Option.map_eq_some_iff.1 h
    exact ⟨b, rest, hb, hrest, rfl⟩
  · rintro ⟨b, rest, rfl, rfl, rfl⟩
    rfl

/-- An object has the value of each leaf in it. -/
theorem eq_of_objectOf {pre : List Str} {fields : TypedFields} {items : List (Str × ConfigObject)}
    (hf : objectOf f pre fields = some items) (hg : objectOf g pre fields = some items) :
    ∀ l ∈ fields.leaves pre, f l = g l := by
  induction fields generalizing pre items with
  | nil => exact fun l hl => absurd hl List.not_mem_nil
  | value name type default rest ih =>
    rw [objectOf, bind_cons_eq_some_iff] at hf hg
    obtain ⟨v, others, hv, hfrest, rfl⟩ := hf
    obtain ⟨w, _, hw, hgrest, heq⟩ := hg
    obtain ⟨hfirst, rfl⟩ := List.cons.inj heq
    cases hfirst
    exact List.forall_mem_cons.2 ⟨hv.trans hw.symm, ih hfrest hgrest⟩
  | nested name fields _ rest ihfields ihrest =>
    rw [objectOf, bind_cons_eq_some_iff] at hf hg
    obtain ⟨v, others, hv, hfrest, rfl⟩ := hf
    obtain ⟨w, _, hw, hgrest, heq⟩ := hg
    obtain ⟨hfirst, rfl⟩ := List.cons.inj heq
    cases hfirst
    exact List.forall_mem_append.2 ⟨ihfields hv hw, ihrest hfrest hgrest⟩

/-- Two objects are equal, or both are missing, if all leaves are alike, or both lack the value of
some leaf. -/
theorem objectOf_eq_iff (pre : List Str) (fields : TypedFields) :
    objectOf f pre fields = objectOf g pre fields ↔
      ((∃ l ∈ fields.leaves pre, f l = none) ∧ ∃ l ∈ fields.leaves pre, g l = none) ∨
        ∀ l ∈ fields.leaves pre, f l = g l := by
  rw [← objectOf_eq_none_iff, ← objectOf_eq_none_iff]
  constructor
  · intro h
    cases hf : objectOf f pre fields with
    | none => exact .inl ⟨rfl, h.symm.trans hf⟩
    | some items => exact .inr (eq_of_objectOf hf (h.symm.trans hf))
  · rintro (⟨hf, hg⟩ | hall)
    · rw [hf, hg]
    · exact objectOf_congr hall

end

/-! ## What the sources give -/

/-- The paths of some of the fields of a class are paths of the class. -/
theorem isLeaf_of_field? {cls rest : ConfigFields} {path : List Str}
    (h : ∀ k t, rest.field? k = some t → cls.field? k = some t) (hpath : IsLeaf rest path) :
    IsLeaf cls path := by
  obtain ⟨name, path, rfl⟩ := List.exists_cons_of_ne_nil hpath.ne_nil
  rcases isLeaf_cons.1 hpath with ⟨hname, rfl⟩ | ⟨sub, hname, hrest⟩
  · exact isLeaf_cons.2 (.inl ⟨h _ _ hname, rfl⟩)
  · exact isLeaf_cons.2 (.inr ⟨sub, h _ _ hname, hrest⟩)

/-- The first name of the path of a section is that of a section. -/
theorem isSection_cons {cls : ConfigFields} {name : Str} {names : List Str} :
    IsSection cls (name :: names) ↔
      ∃ sub, cls.field? name = some (.nested sub) ∧ IsSection sub names := by
  rw [IsSection]
  cases cls.field? name with
  | none => simp
  | some t =>
    cases t with
    | value => simp
    | nested sub => simp

/-- A section of some fields is one of any fields that go on with them. -/
theorem isSection_of_field? {cls rest : ConfigFields} {names : List Str}
    (h : ∀ k t, rest.field? k = some t → cls.field? k = some t) (hnames : IsSection rest names) :
    IsSection cls names := by
  cases names with
  | nil => trivial
  | cons name names =>
    obtain ⟨sub, hname, hrest⟩ := isSection_cons.1 hnames
    exact isSection_cons.2 ⟨sub, h _ _ hname, hrest⟩

/-- A field behind another one is found past it. -/
theorem field?_of_rest_value {fields : TypedFields} {name : Str}
    (h : fields.erase.field? name = none) (k : Str) (t : FieldType)
    (hk : fields.erase.field? k = some t) :
    (ConfigFields.value name fields.erase).field? k = some t :=
  (ConfigFields.field?_value h).2 (.inr hk)

/-- A field behind a section is found past it. -/
theorem field?_of_rest_nested {fields sub : TypedFields} {name : Str}
    (h : fields.erase.field? name = none) (k : Str) (t : FieldType)
    (hk : fields.erase.field? k = some t) :
    (ConfigFields.nested name sub.erase fields.erase).field? k = some t :=
  (ConfigFields.field?_nested h).2 (.inr hk)

/-- The path of a leaf is that of a value of the class. -/
theorem isLeaf_of_mem_leaves {fields : TypedFields} (h : fields.erase.Named) {pre : List Str}
    {l : Leaf} (hl : l ∈ fields.leaves pre) :
    ∃ path, l.path = pre ++ path ∧ IsLeaf fields.erase path := by
  induction fields generalizing pre with
  | nil => exact absurd hl List.not_mem_nil
  | value name type default rest ih =>
    rw [leaves] at hl
    rcases List.mem_cons.1 hl with rfl | hl
    · exact ⟨[name], rfl, isLeaf_cons.2 (.inl ⟨if_pos rfl, rfl⟩)⟩
    · obtain ⟨path, hpath, hleaf⟩ := ih h.2 hl
      exact ⟨path, hpath, isLeaf_of_field? (field?_of_rest_value h.1) hleaf⟩
  | nested name fields _ rest ihfields ihrest =>
    rw [leaves] at hl
    rcases List.mem_append.1 hl with hl | hl
    · obtain ⟨path, hpath, hleaf⟩ := ihfields h.2.1 hl
      refine ⟨name :: path, by rw [hpath, List.append_assoc]; rfl, ?_⟩
      exact isLeaf_cons.2 (.inr ⟨fields.erase, if_pos rfl, hleaf⟩)
    · obtain ⟨path, hpath, hleaf⟩ := ihrest h.2.2 hl
      exact ⟨path, hpath, isLeaf_of_field? (field?_of_rest_nested h.1) hleaf⟩

/-- What a leaf is set to, if it is given what `raw` has for its path. -/
def leafValue (C : TypeCalls κ α) (raw : List Str → Option (Config κ (Scalar α))) (l : Leaf) :
    Option PyValue :=
  match raw l.path with
  | some v => (C.call l.type v).toOption
  | none => l.default

/-- A dictionary that has, for a class, what `raw` has for its paths, and all sections. -/
structure HoldsRaw (raw : List Str → Option (Config κ (Scalar α))) (pre : List Str)
    (cls : ConfigFields) (d : Dict (Key κ) (Config κ (Scalar α))) : Prop where
  leaf : ∀ path, IsLeaf cls path → at? (path.map .name) (.mapping d.items) = raw (pre ++ path)
  sections : ∀ names, IsSection cls names →
    ∃ items, at? (names.map .name) (.mapping d.items) = some (.mapping items)

section

variable {raw : List Str → Option (Config κ (Scalar α))} {pre : List Str}
  {d : Dict (Key κ) (Config κ (Scalar α))}

/-- A dictionary that holds the values of some fields holds those of fewer. -/
theorem HoldsRaw.rest {cls rest : ConfigFields}
    (h : HoldsRaw raw pre cls d) (hfields : ∀ k t, rest.field? k = some t → cls.field? k = some t) :
    HoldsRaw raw pre rest d :=
  ⟨fun path hpath => h.leaf path (isLeaf_of_field? hfields hpath),
    fun names hnames => h.sections names (isSection_of_field? hfields hnames)⟩

/-- A field has the value at its path. -/
theorem HoldsRaw.get?_value {cls : ConfigFields} {name : Str} (h : HoldsRaw raw pre cls d)
    (hname : cls.field? name = some .value) : d.get? (.name name) = raw (pre ++ [name]) := by
  have hleaf := h.leaf [name] (isLeaf_cons.2 (.inl ⟨hname, rfl⟩))
  rwa [List.map_cons, List.map_nil, at?_cons_mapping, bind_at?_nil] at hleaf

/-- A section has what `raw` has for the paths in it. -/
theorem HoldsRaw.get?_nested {cls sub : ConfigFields} {name : Str} (h : HoldsRaw raw pre cls d)
    (hname : cls.field? name = some (.nested sub)) :
    ∃ items, d.get? (.name name) = some (.mapping items) ∧
      HoldsRaw raw (pre ++ [name]) sub (.ofItems items) := by
  obtain ⟨items, hitems⟩ := h.sections [name] (isSection_cons.2 ⟨sub, hname, trivial⟩)
  rw [List.map_cons, List.map_nil, at?_cons_mapping, bind_at?_nil] at hitems
  -- What is in the section is at the longer path.
  have hat : ∀ path : List Str, path ≠ [] → at? (path.map .name)
      (.mapping (Dict.ofItems items).items) =
        at? ((name :: path).map .name) (.mapping d.items) := by
    intro path hpath
    have hne : path.map (Key.name (κ := κ)) ≠ [] := fun hnil =>
      hpath (List.map_eq_nil_iff.1 hnil)
    rw [at?_ofItems hne, List.map_cons, at?_cons_mapping, hitems, Option.bind_some]
  refine ⟨items, hitems, fun path hpath => ?_, fun names hnames => ?_⟩
  · rw [hat path hpath.ne_nil, h.leaf _ (isLeaf_cons.2 (.inr ⟨sub, hname, hpath⟩)),
      List.append_assoc]
    rfl
  · cases names with
    | nil => exact ⟨_, at?_nil _⟩
    | cons name' names =>
      rw [hat _ (List.cons_ne_nil _ _)]
      exact h.sections _ (isSection_cons.2 ⟨sub, hname, hnames⟩)

/-- Whether a computation in two parts returns is decided by both. -/
theorem toOption_bind {ε β γ : Type} (x : Except ε β) (f : β → Except ε γ) :
    (x >>= f).toOption = x.toOption.bind fun b => (f b).toOption := by
  cases x with
  | error e => rfl
  | ok b => rfl

/-- A map leaves open whether a computation returns. -/
theorem toOption_map {ε β γ : Type} (x : Except ε β) (f : β → γ) :
    (x.map f).toOption = x.toOption.map f := by
  cases x with
  | error e => rfl
  | ok b => rfl

/-- A default is taken if there is one. -/
theorem toOption_defaultOrRaise {β : Type} (default : Option β) :
    (defaultOrRaise default).toOption = default := by
  cases default with
  | none => rfl
  | some b => rfl

/-- Structuring makes the object of what the leaves are given. -/
theorem toOption_structureFields (C : TypeCalls κ α) {fields : TypedFields}
    (hnamed : fields.erase.Named) (h : HoldsRaw raw pre fields.erase d) :
    (structureFields C fields d).toOption = objectOf (leafValue C raw) pre fields := by
  induction fields generalizing pre d with
  | nil => rfl
  | value name type default rest ih =>
    have hrest := ih hnamed.2 (h.rest (field?_of_rest_value hnamed.1))
    have hget := h.get?_value (if_pos rfl)
    -- The leaf gets the value of the dictionary, or its default.
    have hfirst : Except.toOption (match d.get? (.name name) with
        | some v => C.call type v
        | none => defaultOrRaise default) = leafValue C raw ⟨pre ++ [name], type, default⟩ := by
      unfold leafValue
      rw [hget]
      cases raw (pre ++ [name]) with
      | none => exact toOption_defaultOrRaise default
      | some v => rfl
    rw [structureFields, objectOf, toOption_bind, hfirst]
    refine congrArg _ (funext fun v => ?_)
    rw [toOption_bind, hrest]
    cases objectOf (leafValue C raw) pre rest with
    | none => rfl
    | some items => rfl
  | nested name fields default rest ihfields ihrest =>
    have hrest := ihrest hnamed.2.2 (h.rest (field?_of_rest_nested hnamed.1))
    -- The dictionary holds a section for the nested class, by the way it was built.
    obtain ⟨items, hget, hsub⟩ := h.get?_nested (if_pos rfl)
    have hfields := ihfields hnamed.2.1 hsub
    rw [structureFields, objectOf, hget, toOption_bind]
    dsimp only
    rw [toOption_map, hfields, Option.bind_map]
    refine congrArg _ (funext fun sub => ?_)
    rw [Function.comp_apply, toOption_bind, hrest]
    cases objectOf (leafValue C raw) pre rest with
    | none => rfl
    | some items => rfl

end

/-! ## `load_config` -/

/-- A layer leaves a dictionary for every section. -/
theorem sections_of_mergeInto {β : Type} {fn : Str → List Str → PyLeaf β} {pre : List Str}
    {cls : ConfigFields} (h : cls.Named) {d r : Dict (Key κ) (Config κ β)}
    (hmerge : mergeInto d (walkConfigClass fn pre cls) = .ok r) {names : List Str}
    (hnames : IsSection cls names) :
    ∃ items, at? (names.map .name) (.mapping r.items) = some (.mapping items) := by
  induction names generalizing cls pre d r with
  | nil => exact ⟨_, at?_nil _⟩
  | cons name names ih =>
    obtain ⟨sub, hname, hrest⟩ := isSection_cons.1 hnames
    obtain ⟨s, t, -, ht, hr⟩ := (overlaid h hmerge).nested name sub hname
    obtain ⟨items, hitems⟩ := ih (h.nested hname) ht hrest
    exact ⟨items, by rw [List.map_cons, at?_cons_mapping, hr, Option.bind_some, hitems]⟩

/-- The command line is merged last. -/
theorem exists_mergeInto_of_configDict {β : Type} {upper : Str → Str} {environ : Str → Option Str}
    {safeLoad : Str → Loaded κ β} {cls : ConfigClass} {cli : Str → PyLeaf β}
    {merged : Dict (Key κ) (Config κ β)}
    (h : configDict upper environ safeLoad cls cli = .ok merged) :
    ∃ d, mergeInto d (walkConfigClass (fun name pre => cli (createCliKey (pre ++ [name]))) [[]]
      cls.fields) = .ok merged := by
  unfold configDict combineNestedDictionaries loadConfigFromEnvironment loadConfigFromCli at h
  cases hfile : (loadConfigFromFile safeLoad (configPath environ)).config with
  | leaf a =>
    rw [hfile] at h
    cases h
  | mapping items =>
    rw [hfile, combineFrom] at h
    obtain ⟨first, -, h⟩ := bind_eq_ok.1 h
    rw [combineFrom] at h
    obtain ⟨second, -, h⟩ := bind_eq_ok.1 h
    rw [combineFrom] at h
    obtain ⟨third, hthird, h⟩ := bind_eq_ok.1 h
    rw [combineFrom] at h
    exact ⟨second, hthird.trans h⟩

namespace ConfigInputs

/-- The configuration in the file, if one is named. -/
def file (inputs : ConfigInputs κ α) : Config κ (Scalar α) :=
  (loadConfigFromFile inputs.safeLoad (configPath inputs.environ)).config

/-- The variable of the value at a path. -/
def envVar (upper : Str → Str) (inputs : ConfigInputs κ α) (path : List Str) : Option Str :=
  inputs.environ (createEnvVarKey upper (configPrefix inputs.environ :: path))

/-- What the sources give for the value at a path: the command line before the environment, and
that before the file. -/
def raw (upper : Str → Str) (inputs : ConfigInputs κ α) (path : List Str) :
    Option (Config κ (Scalar α)) :=
  ((given (inputs.cli (createCliKey path))).or
    ((inputs.envVar upper path).map fun s => .leaf (.string s))).or
      (at? (path.map .name) inputs.file)

end ConfigInputs

omit [DecidableEq κ] in
/-- What the environment gives for a key is a text. -/
theorem given_getEnv {β : Type} (environ : Str → Option Str) (key : Str) :
    given (getEnv environ key : PyLeaf β) =
      (environ key).map fun s => (.leaf (.string s) : Config κ β) := by
  unfold getEnv
  cases environ key with
  | none => rfl
  | some s => rfl

/-- With a readable file, `load_config` makes the object of what the sources give. -/
theorem toOption_loadConfig (C : TypeCalls κ α) (upper : Str → Str) (cls : TypedClass)
    {inputs : ConfigInputs κ α} (h : ReadableFile cls.fields.erase inputs.file) :
    (loadConfig C upper cls inputs).toOption =
      (objectOf (leafValue C (inputs.raw upper)) [] cls.fields).map Nested.mapping := by
  obtain ⟨merged, hmerged, hleaf, -⟩ := (layered_iff upper inputs.environ inputs.safeLoad cls.erase
    inputs.cli).2 h
  obtain ⟨d, hmerge⟩ := exists_mergeInto_of_configDict hmerged
  have hholds : HoldsRaw (inputs.raw upper) [] cls.fields.erase merged := by
    refine ⟨fun path hpath => ?_, fun names hnames => sections_of_mergeInto cls.named hmerge hnames⟩
    rw [hleaf path hpath, given_getEnv]
    rfl
  have hfields := toOption_structureFields C cls.named hholds
  have herror : ∀ x : Except PyExc ConfigObject,
      (x.mapError fun _ => PyExc.classValidationError).toOption = x.toOption := by
    intro x
    cases x with
    | error e => rfl
    | ok v => rfl
  unfold loadConfig
  rw [hmerged, ok_bind, structureClass, herror, toOption_map, hfields]

end Vumi2
