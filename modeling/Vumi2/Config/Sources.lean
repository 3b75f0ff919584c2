import Vumi2.Config.Structuring

/-!
# A setting from the file and from the environment

The same values for some of the leaves of a class, from the file or from the environment. The file
has numbers and booleans as such, the environment has the text of each. The object is the same from
both, except for what no text reads back as (`objectOf_loaded_eq_text_iff`): `int` refuses a text of
too many digits, and `bool` takes every text that is not empty for true, `false` as well.
-/

namespace Vumi2

open Text Nested TypedFields

/-! ## The text of a value -/

/-- A value as it is written in the environment and on the command line. -/
def PyValue.text : PyValue → Str
  | string s => s
  | int n => Json.intText n
  | bool true => str "true"
  | bool false => str "false"

/-- A value as it is read from the file, where a string is quoted. -/
def PyValue.loaded {α : Type} : PyValue → PyLeaf (Scalar α)
  | string s => .string s
  | int n => .other (.int n)
  | bool b => .other (.bool b)

/-- A value whose type makes it again of its text. -/
def PyValue.ReadsBack : PyValue → Prop
  | string _ => True
  | int n => (decimal n.natAbs).length ≤ Json.maxStrDigits
  | bool b => b = true

variable {κ α : Type}

/-- Calling the type on what a value is loaded as gives the value. -/
theorem TypeCalls.call_loaded (C : TypeCalls κ α) (v : PyValue) :
    C.call v.type (.leaf v.loaded) = .ok v := by
  cases v with
  | string s => rfl
  | int n => rfl
  | bool b => rfl

/-- What `int` makes of a text. -/
theorem TypeCalls.toOption_call_int (C : TypeCalls κ α) (s : Str) :
    (C.call .int (.leaf (.string s))).toOption = (intOfText s).map .int := by
  rw [TypeCalls.call]
  cases intOfText s with
  | none => rfl
  | some n => rfl

/-- Which values come back from their texts. -/
theorem TypeCalls.call_text (C : TypeCalls κ α) (v : PyValue) :
    (C.call v.type (.leaf (.string v.text))).toOption = some v ↔ v.ReadsBack := by
  cases v with
  | string s => exact iff_of_true rfl trivial
  | int n =>
    show (C.call .int (.leaf (.string (Json.intText n)))).toOption = _ ↔
      (decimal n.natAbs).length ≤ Json.maxStrDigits
    rw [C.toOption_call_int, intOfText_intText]
    split_ifs with hdigits
    · exact iff_of_true rfl hdigits
    · exact iff_of_false nofun hdigits
  | bool b =>
    -- No text of a boolean is empty.
    have hcall : (C.call .bool (.leaf (.string (PyValue.bool b).text))).toOption =
        some (.bool true) := by
      cases b with
      | false => rfl
      | true => rfl
    show (C.call .bool (.leaf (.string (PyValue.bool b).text))).toOption = _ ↔ b = true
    rw [hcall, Option.some.injEq, PyValue.bool.injEq]
    exact eq_comm

/-! ## The sources -/

/-- Values for some of the leaves of a class. -/
structure Assignment (cls : TypedClass) where
  value : List Str → Option PyValue
  /-- A value has the type of its leaf. -/
  typed : ∀ l ∈ cls.fields.leaves [], ∀ v, value l.path = some v → v.type = l.type
  /-- Nothing else has a value. -/
  only : ∀ path v, value path = some v → ∃ l ∈ cls.fields.leaves [], l.path = path

/-- What every parsed command line has at the key of a path, where `attrs` gives the attributes of
every `argparse.Namespace`. -/
def namespaceAttr (attrs : Str → Option (PyLeaf (Scalar α))) (path : List Str) :
    PyLeaf (Scalar α) :=
  (attrs (createCliKey path)).getD .none

/-- No leaf lacks both a value and a default. A leaf whose key is an attribute of every namespace is
given that attribute, of which its type has to make a value. -/
def Assignment.Complete (C : TypeCalls κ α) (attrs : Str → Option (PyLeaf (Scalar α)))
    {cls : TypedClass} (a : Assignment cls) : Prop :=
  ∀ l ∈ cls.fields.leaves [],
    (namespaceAttr attrs l.path = .none → a.value l.path = none → l.default ≠ none) ∧
      (namespaceAttr attrs l.path ≠ .none →
        (C.call l.type (.leaf (namespaceAttr attrs l.path))).toOption ≠ none)

/-- The values come back from their texts. A value of a leaf whose key every namespace has is read
from neither the file nor the environment. -/
def Assignment.ReadsBack (attrs : Str → Option (PyLeaf (Scalar α))) {cls : TypedClass}
    (a : Assignment cls) : Prop :=
  ∀ l ∈ cls.fields.leaves [], namespaceAttr attrs l.path = .none →
    ∀ v, a.value l.path = some v → v.ReadsBack

variable [DecidableEq κ]

/-- The file and the environment have these values for the leaves of a class. Of what else is there,
the file is a dictionary without a section that is none. -/
structure Supplies (upper : Str → Str) (cls : TypedClass) (file environ : List Str → Option PyValue)
    (inputs : ConfigInputs κ α) : Prop where
  readable : ReadableFile cls.fields.erase inputs.file
  file : ∀ l ∈ cls.fields.leaves [],
    at? (l.path.map .name) inputs.file = (file l.path).map fun v => .leaf v.loaded
  environ : ∀ l ∈ cls.fields.leaves [],
    inputs.envVar upper l.path = (environ l.path).map PyValue.text

/-- The parsed arguments have nothing for the leaves of a class but what every namespace has. -/
def NotFromCli (attrs : Str → Option (PyLeaf (Scalar α))) (cls : TypedClass)
    (inputs : ConfigInputs κ α) : Prop :=
  ∀ l ∈ cls.fields.leaves [], inputs.cli (createCliKey l.path) = namespaceAttr attrs l.path

/-- No source but the file has values. -/
def FromFile (upper : Str → Str) (attrs : Str → Option (PyLeaf (Scalar α))) {cls : TypedClass}
    (a : Assignment cls) (inputs : ConfigInputs κ α) : Prop :=
  Supplies upper cls a.value (fun _ => none) inputs ∧ NotFromCli attrs cls inputs

/-- No source but the environment has values. -/
def FromEnvironment (upper : Str → Str) (attrs : Str → Option (PyLeaf (Scalar α)))
    {cls : TypedClass} (a : Assignment cls) (inputs : ConfigInputs κ α) : Prop :=
  Supplies upper cls (fun _ => none) a.value inputs ∧ NotFromCli attrs cls inputs

section

variable {upper : Str → Str} {attrs : Str → Option (PyLeaf (Scalar α))} {cls : TypedClass}
  {a : Assignment cls} {inputs : ConfigInputs κ α}

/-- What a leaf is set to, if its value comes from the file, or else from the environment. -/
def assigned (C : TypeCalls κ α) (attrs : Str → Option (PyLeaf (Scalar α))) (a : Assignment cls)
    (as : PyValue → PyLeaf (Scalar α)) (l : Leaf) : Option PyValue :=
  leafValue C (fun path => (given (namespaceAttr attrs path)).or
    ((a.value path).map fun v => .leaf (as v))) l

/-- What is read for a leaf. -/
theorem raw_of_supplies {file environ : List Str → Option PyValue}
    (h : Supplies upper cls file environ inputs) {l : Leaf} (hl : l ∈ cls.fields.leaves []) :
    inputs.raw upper l.path = ((given (inputs.cli (createCliKey l.path))).or
      ((environ l.path).map fun v => .leaf (.string v.text))).or
        ((file l.path).map fun v => .leaf v.loaded) := by
  unfold ConfigInputs.raw
  rw [h.environ l hl, h.file l hl, Option.map_map]
  rfl

/-- Where the values are read from one source, the object is made of them. -/
theorem loadConfig_of_raw (C : TypeCalls κ α) {as : PyValue → PyLeaf (Scalar α)}
    (hread : ReadableFile cls.fields.erase inputs.file)
    (h : ∀ l ∈ cls.fields.leaves [], inputs.raw upper l.path =
      (given (namespaceAttr attrs l.path)).or ((a.value l.path).map fun v => .leaf (as v))) :
    (loadConfig C upper cls inputs).toOption =
      (objectOf (assigned C attrs a as) [] cls.fields).map Nested.mapping := by
  have hleaf : ∀ l ∈ cls.fields.leaves [],
      leafValue C (inputs.raw upper) l = assigned C attrs a as l := by
    intro l hl
    unfold assigned leafValue
    rw [h l hl]
  rw [toOption_loadConfig C upper cls hread, objectOf_congr hleaf]

/-- The object that is loaded from the file. -/
theorem loadConfig_fromFile (C : TypeCalls κ α) (h : FromFile upper attrs a inputs) :
    (loadConfig C upper cls inputs).toOption =
      (objectOf (assigned C attrs a PyValue.loaded) [] cls.fields).map Nested.mapping := by
  refine loadConfig_of_raw C h.1.readable fun l hl => ?_
  rw [raw_of_supplies h.1 hl, h.2 l hl, Option.map_none, Option.or_none]

/-- The object that is loaded from the environment. -/
theorem loadConfig_fromEnvironment (C : TypeCalls κ α) (h : FromEnvironment upper attrs a inputs) :
    (loadConfig C upper cls inputs).toOption =
      (objectOf (assigned C attrs a fun v => .string v.text) [] cls.fields).map Nested.mapping := by
  refine loadConfig_of_raw C h.1.readable fun l hl => ?_
  rw [raw_of_supplies h.1 hl, h.2 l hl, Option.map_none, Option.or_none]

omit [DecidableEq κ] in
/-- What every namespace has overrides a value. -/
theorem assigned_of_namespaceAttr (C : TypeCalls κ α) {as : PyValue → PyLeaf (Scalar α)} {l : Leaf}
    (h : namespaceAttr attrs l.path ≠ .none) :
    assigned C attrs a as l = (C.call l.type (.leaf (namespaceAttr attrs l.path))).toOption := by
  unfold assigned leafValue
  dsimp only
  cases hattr : namespaceAttr attrs l.path with
  | none => exact absurd hattr h
  | string s => rfl
  | other b => rfl

omit [DecidableEq κ] in
/-- A leaf with a value is set to what its type makes of it. -/
theorem assigned_of_some (C : TypeCalls κ α) {as : PyValue → PyLeaf (Scalar α)} {l : Leaf}
    (h : namespaceAttr attrs l.path = .none) (hl : l ∈ cls.fields.leaves []) {v : PyValue}
    (hv : a.value l.path = some v) :
    assigned C attrs a as l = (C.call v.type (.leaf (as v))).toOption := by
  unfold assigned leafValue
  dsimp only
  rw [h, hv, a.typed l hl v hv]
  rfl

omit [DecidableEq κ] in
/-- A leaf without one has its default. -/
theorem assigned_of_none (C : TypeCalls κ α) {as : PyValue → PyLeaf (Scalar α)} {l : Leaf}
    (h : namespaceAttr attrs l.path = .none) (hv : a.value l.path = none) :
    assigned C attrs a as l = l.default := by
  unfold assigned leafValue
  dsimp only
  rw [h, hv]
  rfl

omit [DecidableEq κ] in
/-- A leaf is set to the value that it has in the file. -/
theorem assigned_loaded_of_some (C : TypeCalls κ α) {l : Leaf}
    (h : namespaceAttr attrs l.path = .none)
    (hl : l ∈ cls.fields.leaves []) {v : PyValue} (hv : a.value l.path = some v) :
    assigned C attrs a PyValue.loaded l = some v := by
  rw [assigned_of_some C h hl hv, C.call_loaded]
  rfl

omit [DecidableEq κ] in
/-- There is an object in the file exactly if the values are complete. -/
theorem complete_iff (C : TypeCalls κ α) :
    a.Complete C attrs ↔ objectOf (assigned C attrs a PyValue.loaded) [] cls.fields ≠ none := by
  rw [Ne, objectOf_eq_none_iff, not_exists]
  refine forall_congr' fun l => ?_
  rw [not_and]
  refine imp_congr_right fun hl => ?_
  by_cases h : namespaceAttr attrs l.path = .none
  · rw [imp_iff_right h, and_iff_left (absurd h)]
    cases hvalue : a.value l.path with
    | none => rw [imp_iff_right rfl, assigned_of_none C h hvalue]
    | some v =>
      rw [assigned_loaded_of_some C h hl hvalue]
      exact iff_of_true nofun nofun
  · rw [and_iff_right (absurd · h), imp_iff_right h, assigned_of_namespaceAttr C h]

variable (attrs) in
omit [DecidableEq κ] in
/-- The object of the values and that of their texts are the same exactly if all values come back
from their texts, or there is no object at all. -/
theorem objectOf_loaded_eq_text_iff (C : TypeCalls κ α) :
    objectOf (assigned C attrs a PyValue.loaded) [] cls.fields =
        objectOf (assigned C attrs a fun v => .string v.text) [] cls.fields ↔
      (a.Complete C attrs → a.ReadsBack attrs) := by
  rw [objectOf_eq_iff]
  constructor
  · rintro hsame hcomplete l hl h v hv
    have hsome := (complete_iff C).1 hcomplete
    rw [Ne, objectOf_eq_none_iff] at hsome
    have heq := hsame.resolve_left (fun hnone => hsome hnone.1) l hl
    rw [assigned_loaded_of_some C h hl hv, assigned_of_some C h hl hv] at heq
    exact (C.call_text v).1 heq.symm
  · intro hback
    by_cases hcomplete : a.Complete C attrs
    · refine .inr fun l hl => ?_
      by_cases h : namespaceAttr attrs l.path = .none
      · cases hvalue : a.value l.path with
        | none => rw [assigned_of_none C h hvalue, assigned_of_none C h hvalue]
        | some v =>
          rw [assigned_loaded_of_some C h hl hvalue, assigned_of_some C h hl hvalue]
          exact ((C.call_text v).2 (hback hcomplete l hl h v hvalue)).symm
      · rw [assigned_of_namespaceAttr C h, assigned_of_namespaceAttr C h]
    · -- The leaf that the file gives nothing has nothing in the environment either.
      have hnone := not_not.1 fun hsome => hcomplete ((complete_iff C).2 hsome)
      obtain ⟨l, hl, hlacks⟩ := (objectOf_eq_none_iff _ _).1 hnone
      refine .inl ⟨⟨l, hl, hlacks⟩, l, hl, ?_⟩
      by_cases h : namespaceAttr attrs l.path = .none
      · cases hvalue : a.value l.path with
        | none => rw [← hlacks, assigned_of_none C h hvalue, assigned_of_none C h hvalue]
        | some v =>
          rw [assigned_loaded_of_some C h hl hvalue] at hlacks
          cases hlacks
      · rw [← hlacks, assigned_of_namespaceAttr C h, assigned_of_namespaceAttr C h]

end

/-! ## Sources of given values -/

/-- What the Unicode database says of the upper case of the characters. -/
structure UpperTable where
  /-- The upper case of a character, which may be several. -/
  upper : CodePoint → Str
  underscore : upper (ofChar '_') = [ofChar '_']

/-- `str.upper`. -/
def UpperTable.upperStr (U : UpperTable) (s : Str) : Str := s.flatMap U.upper

/-- The upper case of a joined name is joined of the upper cases. -/
theorem UpperTable.upperStr_intercalate (U : UpperTable) (parts : List Str) :
    U.upperStr ([ofChar '_'].intercalate parts) =
      [ofChar '_'].intercalate (parts.map U.upperStr) := by
  induction parts with
  | nil => rfl
  | cons s parts ih =>
    cases parts with
    | nil => simp
    | cons s' parts =>
      have hcons : U.upperStr (s ++ [ofChar '_'] ++ [ofChar '_'].intercalate (s' :: parts)) =
          U.upperStr s ++ [ofChar '_'] ++ U.upperStr ([ofChar '_'].intercalate (s' :: parts)) := by
        unfold upperStr
        rw [List.flatMap_append, List.flatMap_append, List.flatMap_singleton, U.underscore]
      rw [List.intercalate_cons_cons, hcons, ih, List.map_cons, List.map_cons, List.map_cons,
        List.intercalate_cons_cons]

/-- The variable of a path is the key of its attribute in upper case. -/
theorem createEnvVarKey_eq (U : UpperTable) (parts : List Str) :
    createEnvVarKey U.upperStr parts = U.upperStr (createCliKey parts) :=
  (U.upperStr_intercalate _).symm

/-- The variables of the leaves of a class are different from one another, and from the two that
`load_config` reads for itself. -/
structure TypedClass.DistinctKeys (U : UpperTable) (cls : TypedClass) : Prop where
  leaves : ∀ l ∈ cls.fields.leaves [], ∀ l' ∈ cls.fields.leaves [],
    createEnvVarKey U.upperStr l.path = createEnvVarKey U.upperStr l'.path → l.path = l'.path
  file : ∀ l ∈ cls.fields.leaves [], createEnvVarKey U.upperStr l.path ≠ str "VUMI_CONFIG_FILE"
  pre : ∀ l ∈ cls.fields.leaves [], createEnvVarKey U.upperStr l.path ≠ str "VUMI_CONFIG_PREFIX"

omit [DecidableEq κ] in
/-- No dictionary of a walk has a key twice. -/
theorem keyed_walk {cls : ConfigFields} (h : cls.Named) {fn : Str → List Str → PyLeaf α}
    (pre : List Str) : (mapping (walkConfigClass fn pre cls) : Config κ α).Keyed := by
  induction cls using ConfigFields.nested_induction generalizing pre with
  | h cls ih =>
    refine .mapping (keys_walkConfigClass h) fun e he => ?_
    rcases (mem_walkConfigClass h).1 he with ⟨name, v, -, hv, rfl⟩ | ⟨name, sub, hname, rfl⟩
    · cases hvalue : fn name pre with
      | none =>
        rw [hvalue] at hv
        cases hv
      | string s =>
        rw [hvalue] at hv
        cases hv
        exact .leaf _
      | other b =>
        rw [hvalue] at hv
        cases hv
        exact .leaf _
    · exact ih name sub hname (h.nested hname) _

/-- What a lookup by a key that is different for every leaf finds. -/
theorem find?_of_key {ls : List Leaf} {key : List Str → Str}
    (hkey : ∀ l ∈ ls, ∀ l' ∈ ls, key l.path = key l'.path → l.path = l'.path) {l : Leaf}
    (hl : l ∈ ls) {β : Type} (f : List Str → Option β) :
    ((ls.find? fun l' => key l'.path = key l.path).bind fun l' => f l'.path) = f l.path := by
  cases hfind : ls.find? fun l' => key l'.path = key l.path with
  | none => exact absurd (decide_eq_true rfl) (List.find?_eq_none.1 hfind l hl)
  | some l' =>
    have heq : key l'.path = key l.path := by simpa using List.find?_some hfind
    rw [Option.bind_some, hkey l' (List.mem_of_find?_eq_some hfind) l hl heq]

/-- A file of these values, with every section in it. -/
def documentOf (κ : Type) {α : Type} (cls : TypedClass) (file : List Str → Option PyValue) :
    Loaded κ (Scalar α) :=
  ⟨walked κ (fun path => ((file path).map PyValue.loaded).getD .none) [] cls.fields.erase,
    keyed_walk cls.named []⟩

/-- An environment of the texts of these values, which names a file. -/
def environOf (U : UpperTable) (cls : TypedClass) (environ : List Str → Option PyValue)
    (key : Str) : Option Str :=
  if key = str "VUMI_CONFIG_FILE" then some (str "config.yaml")
  else ((cls.fields.leaves []).find? fun l => createEnvVarKey U.upperStr l.path = key).bind
    fun l => (environ l.path).map PyValue.text

/-- The value of a leaf in a walk. -/
theorem at?_walked_of_isLeaf {cls : ConfigFields} (h : cls.Named) (source : List Str → PyLeaf α)
    {path : List Str} (hpath : IsLeaf cls path) :
    at? (path.map .name) (walked κ source [] cls) = given (source path) := by
  have hmerge : mergeInto Dict.empty (walkConfigClass (fun name pre => source (pre ++ [name])) []
      cls) = .ok (.ofItems _) := mergeInto_empty (κ := κ) (keyed_walk h [])
  have hat := at?_of_isLeaf source h hmerge hpath
  have hnil : at? (path.map (Key.name (κ := κ))) (mapping []) = (none : Option (Config κ α)) := by
    obtain ⟨name, path, rfl⟩ := List.exists_cons_of_ne_nil hpath.ne_nil
    rfl
  have hne : path.map (Key.name (κ := κ)) ≠ [] := fun hnil =>
    hpath.ne_nil (List.map_eq_nil_iff.1 hnil)
  rw [at?_ofItems hne] at hat
  exact hat.trans ((congrArg _ hnil).trans Option.or_none)

/-- `VUMI_CONFIG_FILE` is set to the file that the sources are read from. -/
theorem configPath_environOf (U : UpperTable) (cls : TypedClass)
    (environ : List Str → Option PyValue) :
    configPath (environOf U cls environ) = some (str "config.yaml") := by
  unfold configPath environOf
  rw [if_pos rfl]
  rfl

/-- No leaf has the variable of the prefix. -/
theorem TypedClass.DistinctKeys.configPrefix_environOf {U : UpperTable} {cls : TypedClass}
    (h : cls.DistinctKeys U) (environ : List Str → Option PyValue) :
    configPrefix (environOf U cls environ) = [] := by
  have hnone : ((cls.fields.leaves []).find? fun l =>
      createEnvVarKey U.upperStr l.path = str "VUMI_CONFIG_PREFIX") = none :=
    List.find?_eq_none.2 fun l hl => by simpa using h.pre l hl
  unfold configPrefix environOf
  rw [if_neg (by decide), hnone]
  rfl

/-- The keys of the attributes differ, since the variables do. -/
theorem TypedClass.DistinctKeys.attributes {U : UpperTable} {cls : TypedClass}
    (h : cls.DistinctKeys U) {l l' : Leaf} (hl : l ∈ cls.fields.leaves [])
    (hl' : l' ∈ cls.fields.leaves []) (heq : createCliKey l.path = createCliKey l'.path) :
    l.path = l'.path := by
  apply h.leaves l hl l' hl'
  rw [createEnvVarKey_eq, createEnvVarKey_eq, heq]

/-- With variables of their own, every leaf can be given every value from both sources. -/
theorem supplies_of_distinctKeys {U : UpperTable} {cls : TypedClass} (h : cls.DistinctKeys U)
    (file environ : List Str → Option PyValue) (cli : Str → PyLeaf (Scalar α)) :
    Supplies U.upperStr cls file environ (⟨environOf U cls environ,
      fun _ => documentOf κ cls file, cli⟩ : ConfigInputs κ α) := by
  have hloaded : (⟨environOf U cls environ, fun _ => documentOf κ cls file, cli⟩ :
      ConfigInputs κ α).file = (documentOf κ cls file).config := by
    unfold ConfigInputs.file
    rw [configPath_environOf]
    rfl
  refine ⟨?_, fun l hl => ?_, fun l hl => ?_⟩
  · rw [hloaded]
    exact readable_of_mergeInto cls.named (mergeInto_empty (keyed_walk cls.named []))
  · obtain ⟨path, hpath, hleaf⟩ := isLeaf_of_mem_leaves cls.named hl
    rw [List.nil_append] at hpath
    rw [hloaded, documentOf, hpath, at?_walked_of_isLeaf cls.named _ hleaf]
    cases file path with
    | none => rfl
    | some v =>
      cases v with
      | string s => rfl
      | int n => rfl
      | bool b => rfl
  · -- The key of the empty prefix and a path is that of the path.
    have hkey : createEnvVarKey U.upperStr ([] :: l.path) = createEnvVarKey U.upperStr l.path := rfl
    unfold ConfigInputs.envVar
    dsimp only
    rw [h.configPrefix_environOf, hkey]
    unfold environOf
    rw [if_neg (h.file l hl)]
    exact find?_of_key h.leaves hl fun path => (environ path).map PyValue.text

end Vumi2
