import Vumi2.Config.Walk
import Vumi2.Lib.Lowercase

/-!
# The options of the command line

`worker_config_options` of `cli.py` adds one option for each value of a configuration class, and
`load_config_from_cli` reads the value back from the parsed arguments. The two make the option and
the attribute from the path of the value on their own. The option is in lower case, and its leading
dashes, which stand for underscores too, are no part of the attribute (`optionDest_option`). So an
option is read back only if no name on the path is changed by `str.lower` and the first does not
start with an underscore (`reachesField_iff`). In a class without a conflict of options, a key of
the namespace belongs to one value (`cliKey_inj`).

`argparse` is modelled as far as an option of one value goes. A parameter gives the attributes that
every `argparse.Namespace` has.
-/

namespace Vumi2

open Text Nested

/-- The case of the characters, as far as options rely on it. -/
structure OptionCase extends CaseTable where
  underscore : toCaseTable.Bounds (ofChar '_')
  dash : toCaseTable.Fixes (ofChar '-')
  equals : toCaseTable.Fixes (ofChar '=')

/-! ## `argparse` -/

/-- `str.replace` of a character. -/
def replaceChar (old new : CodePoint) (s : Str) : Str := s.map fun c => if c = old then new else c

/-- The action of an option of one value. -/
structure StoreAction where
  option_string : Str
  dest : Str

/-- The option strings of the action that every parser has. -/
def helpStrings : List Str := [str "-h", str "--help"]

/-- The two help options are different. -/
theorem nodup_helpStrings : helpStrings.Nodup := by decide

/-- An `argparse.ArgumentParser`, to which options of one value are added. -/
structure ArgumentParser where
  actions : List StoreAction
  /-- No option string is used twice. -/
  nodup : (helpStrings ++ actions.map StoreAction.option_string).Nodup

/-- The attribute that the value of a long option is stored in, which may not be empty. -/
def optionDest (option : Str) : Str :=
  replaceChar (ofChar '-') (ofChar '_') (option.dropWhile fun c => c = ofChar '-')

namespace ArgumentParser

/-- `ArgumentParser()`. -/
def new : ArgumentParser := ⟨[], nodup_helpStrings⟩

/-- The option strings of the actions. -/
def optionStrings (parser : ArgumentParser) : List Str :=
  helpStrings ++ parser.actions.map StoreAction.option_string

/-- Whether an action has this option string. -/
def hasOption (parser : ArgumentParser) (option : Str) : Bool :=
  parser.optionStrings.any fun o => o = option

/-- An option that is not there yet can be added. -/
theorem nodup_append {parser : ArgumentParser} {a : StoreAction}
    (h : ¬ parser.hasOption a.option_string = true) :
    (helpStrings ++ (parser.actions ++ [a]).map StoreAction.option_string).Nodup := by
  have hnew : a.option_string ∉ parser.optionStrings := by
    intro hmem
    exact h (List.any_eq_true.2 ⟨_, hmem, decide_eq_true rfl⟩)
  rw [List.map_append, List.map_cons, List.map_nil, ← List.append_assoc]
  exact List.nodup_append.2 ⟨parser.nodup, List.nodup_singleton _, fun o ho o' ho' heq =>
    hnew (List.mem_singleton.1 ho' ▸ heq ▸ ho)⟩

/-- `add_argument` of a long option. -/
def addArgument (parser : ArgumentParser) (option : Str) : Except PyExc ArgumentParser :=
  -- An option of dashes alone has no destination, which is noticed before a conflict.
  if (optionDest option).isEmpty then .error .valueError
  else if h : parser.hasOption option = true then .error (.external "ArgumentError" [])
  else .ok ⟨parser.actions ++ [⟨option, optionDest option⟩], nodup_append h⟩

/-- The action that an option string stands for: the action of that option, or of the only one that
it abbreviates. -/
def findAction (parser : ArgumentParser) (option : Str) : Option StoreAction :=
  match parser.actions.find? fun a => a.option_string = option with
  | some a => some a
  | none =>
    -- The help option may be abbreviated too, but it takes no value.
    match parser.optionStrings.filter fun o => option.isPrefixOf o with
    | [o] => parser.actions.find? fun a => a.option_string = o
    | _ => none

end ArgumentParser

variable {α : Type}

/-- The attributes that were set on an `argparse.Namespace`. -/
abbrev ArgNamespace (α : Type) : Type := Dict Str (PyLeaf α)

namespace ArgNamespace

/-- `getattr(namespace, name, None)`, where `attrs` gives the attributes that every namespace
has. -/
def getattr (attrs : Str → Option (PyLeaf α)) (namespc : ArgNamespace α) (name : Str) : PyLeaf α :=
  ((namespc.get? name).or (attrs name)).getD .none

/-- The defaults: an attribute that a namespace does not have yet is `None`. -/
def setDefaults (attrs : Str → Option (PyLeaf α)) :
    List StoreAction → ArgNamespace α → ArgNamespace α
  | [], namespc => namespc
  | a :: actions, namespc =>
    if namespc.contains a.dest || (attrs a.dest).isSome then setDefaults attrs actions namespc
    else setDefaults attrs actions (namespc.set a.dest .none)

end ArgNamespace

/-- `parse_args` of one argument of the form `--option=value`. -/
def ArgumentParser.parseArgs (attrs : Str → Option (PyLeaf α)) (parser : ArgumentParser)
    (arg : Str) : Except PyExc (ArgNamespace α) :=
  -- The value comes after the first equals sign, and may have more of them.
  match arg.dropWhile (fun c => c ≠ ofChar '='),
      parser.findAction (arg.takeWhile fun c => c ≠ ofChar '=') with
  | _ :: value, some a =>
    .ok ((ArgNamespace.setDefaults attrs parser.actions .empty).set a.dest (.string value))
  | _, _ => .error (.external "SystemExit" [])

/-! ## `cli.py` -/

/-- `_create_argument_key`. -/
def createArgumentKey (T : CaseTable) (parts : List Str) : Str :=
  (str "-").intercalate ((parts.filter fun part => !part.isEmpty).map fun part =>
    replaceChar (ofChar '_') (ofChar '-') (T.lowerStr part))

/-- `walk_config_class` with `add_arg`, which adds an option to the parser and returns nothing. -/
def walkAddArg (T : CaseTable) :
    List Str → ConfigFields → ArgumentParser → Except PyExc ArgumentParser
  | _, .nil, parser => .ok parser
  | pre, .value name rest, parser =>
    (parser.addArgument (str "--" ++ createArgumentKey T (pre ++ [name]))) >>= fun parser =>
      walkAddArg T pre rest parser
  | pre, .nested name fields rest, parser =>
    -- The fields of a section come before those after it.
    (walkAddArg T (pre ++ [name]) fields parser) >>= fun parser => walkAddArg T pre rest parser

/-- `worker_config_options`. -/
def workerConfigOptions (T : CaseTable) (cls : ConfigClass) (parser : ArgumentParser) (pre : Str) :
    Except PyExc ArgumentParser := walkAddArg T [pre] cls.fields parser

/-- The option that is generated for the value at a path. -/
def optionOf (T : CaseTable) (path : List Str) : Str := str "--" ++ createArgumentKey T ([] :: path)

/-- What `load_config_from_cli` makes of a command line that gives one option. -/
def configOfArg (κ : Type) (attrs : Str → Option (PyLeaf α)) (cls : ConfigClass)
    (parser : ArgumentParser) (option value : Str) : Except PyExc (Config κ α) :=
  (parser.parseArgs attrs (option ++ str "=" ++ value)) >>= fun namespc =>
    .ok (loadConfigFromCli (namespc.getattr attrs) cls [])

/-! ## The option and the key of a path -/

/-- A name that is no worse than an identifier. -/
structure IsName (name : Str) : Prop where
  ne_nil : name ≠ []
  dash : ofChar '-' ∉ name
  equals : ofChar '=' ∉ name

/-- Replacing the separator of a joined text joins the parts with the new one. -/
theorem replaceChar_intercalate (old new : CodePoint) (parts : List Str) :
    replaceChar old new ([old].intercalate parts) =
      [new].intercalate (parts.map (replaceChar old new)) := by
  induction parts with
  | nil => rfl
  | cons s parts ih =>
    cases parts with
    | nil => simp
    | cons s' parts =>
      have hold : replaceChar old new (s ++ [old] ++ [old].intercalate (s' :: parts)) =
          replaceChar old new s ++ [new] ++
            replaceChar old new ([old].intercalate (s' :: parts)) := by
        unfold replaceChar
        rw [List.map_append, List.map_append, List.map_singleton, if_pos rfl]
      rw [List.intercalate_cons_cons, hold, ih, List.map_cons, List.map_cons, List.map_cons,
        List.intercalate_cons_cons]

/-- The option is made from the key, by `str.lower` and with dashes. -/
theorem createArgumentKey_eq (T : OptionCase) (parts : List Str) :
    createArgumentKey T.toCaseTable parts =
      replaceChar (ofChar '_') (ofChar '-') (T.lowerStr (createCliKey parts)) := by
  unfold createArgumentKey createCliKey
  have hlower := CaseTable.lowerStr_intercalate T.underscore
    (parts.filter fun part => !part.isEmpty)
  have hreplace := replaceChar_intercalate (ofChar '_') (ofChar '-')
    ((parts.filter fun part => !part.isEmpty).map T.lowerStr)
  rw [List.map_map] at hreplace
  show [ofChar '-'].intercalate _ = replaceChar _ _ (T.lowerStr ([ofChar '_'].intercalate _))
  rw [hlower, hreplace]
  rfl

/-- A replacement is undone where there was none of the new character. -/
theorem replaceChar_replaceChar {old new : CodePoint} {s : Str} (h : new ∉ s) :
    replaceChar new old (replaceChar old new s) = s := by
  have hsame : ∀ c ∈ s, (if (if c = old then new else c) = new then old else
      (if c = old then new else c)) = c := by
    intro c hc
    have hne : c ≠ new := fun heq => h (heq ▸ hc)
    by_cases hold : c = old
    · rw [if_pos hold, if_pos rfl, hold]
    · rw [if_neg hold, if_neg hne]
  unfold replaceChar
  rw [List.map_map]
  exact (List.map_congr_left hsame).trans (List.map_id s)

/-- Leading separators are dropped before or after they are replaced. -/
theorem dropWhile_replaceChar {old new : CodePoint} {s : Str} (h : new ∉ s) :
    (replaceChar old new s).dropWhile (fun c => c = new) =
      replaceChar old new (s.dropWhile fun c => c = old) := by
  induction s with
  | nil => rfl
  | cons c s ih =>
    rw [List.mem_cons, not_or] at h
    obtain ⟨hc, hs⟩ := h
    have hcons : replaceChar old new (c :: s) =
        (if c = old then new else c) :: replaceChar old new s := rfl
    by_cases hold : c = old
    · rw [hcons, if_pos hold, List.dropWhile_cons, if_pos (decide_eq_true rfl), ih hs,
        List.dropWhile_cons, if_pos (decide_eq_true hold)]
    · rw [hcons, if_neg hold, List.dropWhile_cons, if_neg (by simpa using Ne.symm hc),
        List.dropWhile_cons, if_neg (by simpa using hold), hcons, if_neg hold]

/-- The destination of an option: its underscores are back, up to those at its start. -/
theorem optionDest_replaceChar {s : Str} (h : ofChar '-' ∉ s) :
    optionDest (str "--" ++ replaceChar (ofChar '_') (ofChar '-') s) =
      s.dropWhile fun c => c = ofChar '_' := by
  have hdashes : (str "--" ++ replaceChar (ofChar '_') (ofChar '-') s).dropWhile
      (fun c => c = ofChar '-') =
        (replaceChar (ofChar '_') (ofChar '-') s).dropWhile (fun c => c = ofChar '-') := rfl
  have hrest : ofChar '-' ∉ s.dropWhile fun c => c = ofChar '_' := fun hmem =>
    h ((List.dropWhile_sublist _).mem hmem)
  unfold optionDest
  rw [hdashes, dropWhile_replaceChar h, replaceChar_replaceChar hrest]

/-! ## The values of a class -/

namespace ConfigFields

/-- All names in a class are no worse than identifiers. -/
def Identifiers : ConfigFields → Prop
  | nil => True
  | value name rest => IsName name ∧ rest.Identifiers
  | nested name fields rest => IsName name ∧ fields.Identifiers ∧ rest.Identifiers

/-- The name of a field is a name. -/
theorem Identifiers.isName {cls : ConfigFields} (h : cls.Identifiers) {k : Str} {t : FieldType}
    (hk : cls.field? k = some t) : IsName k := by
  induction cls with
  | nil => cases hk
  | value name rest ih =>
    unfold field? at hk
    split_ifs at hk with heq
    · exact heq ▸ h.1
    · exact ih h.2 hk
  | nested name fields rest _ ih =>
    unfold field? at hk
    split_ifs at hk with heq
    · exact heq ▸ h.1
    · exact ih h.2.2 hk

/-- The fields of a nested class have names, too. -/
theorem Identifiers.nested {cls : ConfigFields} (h : cls.Identifiers) {k : Str}
    {sub : ConfigFields} (hk : cls.field? k = some (.nested sub)) : sub.Identifiers := by
  induction cls with
  | nil => cases hk
  | value name rest ih =>
    unfold field? at hk
    split_ifs at hk
    · cases hk
    · exact ih h.2 hk
  | nested name fields rest _ ih =>
    unfold field? at hk
    split_ifs at hk
    · cases hk
      exact h.2.1
    · exact ih h.2.2 hk

/-- The paths of the values, after a prefix, in the order of the walk. -/
def leafPaths : List Str → ConfigFields → List (List Str)
  | _, nil => []
  | pre, value name rest => (pre ++ [name]) :: leafPaths pre rest
  | pre, nested name fields rest => leafPaths (pre ++ [name]) fields ++ leafPaths pre rest

end ConfigFields

variable {cls : ConfigFields} {path : List Str}

/-- The path of a leaf consists of names. -/
theorem isName_of_isLeaf (h : cls.Identifiers) (hpath : IsLeaf cls path) :
    ∀ name ∈ path, IsName name := by
  induction path generalizing cls with
  | nil => exact absurd hpath not_false
  | cons name path ih =>
    rcases isLeaf_cons.1 hpath with ⟨hname, rfl⟩ | ⟨sub, hname, hrest⟩
    · exact List.forall_mem_cons.2 ⟨h.isName hname, nofun⟩
    · exact List.forall_mem_cons.2 ⟨h.isName hname, ih (h.nested hname) hrest⟩

/-- A path leads to the same value in two classes that agree on its first name. -/
theorem isLeaf_congr {cls cls' : ConfigFields} {name : Str}
    (h : cls.field? name = cls'.field? name) :
    IsLeaf cls (name :: path) ↔ IsLeaf cls' (name :: path) := by rw [isLeaf_cons, isLeaf_cons, h]

/-- The walk comes by every value. -/
theorem mem_leafPaths (pre : List Str) (hpath : IsLeaf cls path) :
    pre ++ path ∈ cls.leafPaths pre := by
  obtain ⟨name, path, rfl⟩ := List.exists_cons_of_ne_nil hpath.ne_nil
  induction cls generalizing pre name path with
  | nil =>
    rcases isLeaf_cons.1 hpath with ⟨hname, -⟩ | ⟨sub, hname, -⟩
    · cases hname
    · cases hname
  | value name' rest ih =>
    have hfield : (ConfigFields.value name' rest).field? name =
        if name = name' then some .value else rest.field? name := rfl
    rw [ConfigFields.leafPaths]
    by_cases heq : name = name'
    · -- The path ends at the first field.
      rw [if_pos heq] at hfield
      rcases isLeaf_cons.1 hpath with ⟨-, rfl⟩ | ⟨sub, hsub, -⟩
      · rw [heq]
        exact List.mem_cons_self
      · rw [hfield] at hsub
        cases hsub
    · rw [if_neg heq] at hfield
      exact List.mem_cons_of_mem _ (ih pre name path ((isLeaf_congr hfield).1 hpath))
  | nested name' fields rest ihfields ihrest =>
    have hfield : (ConfigFields.nested name' fields rest).field? name =
        if name = name' then some (.nested fields) else rest.field? name := rfl
    rw [ConfigFields.leafPaths]
    by_cases heq : name = name'
    · -- It goes on in the section of the first field.
      rw [if_pos heq] at hfield
      rcases isLeaf_cons.1 hpath with ⟨hvalue, -⟩ | ⟨sub, hsub, hrest⟩
      · rw [hfield] at hvalue
        cases hvalue
      · rw [hfield] at hsub
        cases hsub
        obtain ⟨name₁, path, rfl⟩ := List.exists_cons_of_ne_nil hrest.ne_nil
        have hmem := ihfields (pre ++ [name']) name₁ path hrest
        rw [List.append_assoc, List.singleton_append] at hmem
        exact List.mem_append_left _ (heq ▸ hmem)
    · rw [if_neg heq] at hfield
      exact List.mem_append_right _ (ihrest pre name path ((isLeaf_congr hfield).1 hpath))

/-! ## The registered options -/

/-- The action of the value that the walk meets at a path. -/
def actionOf (T : CaseTable) (parts : List Str) : StoreAction where
  option_string := str "--" ++ createArgumentKey T parts
  dest := optionDest (str "--" ++ createArgumentKey T parts)

/-- An added argument is the last action, with its destination. -/
theorem actions_addArgument {parser parser' : ArgumentParser} {option : Str}
    (h : parser.addArgument option = .ok parser') :
    parser'.actions = parser.actions ++ [⟨option, optionDest option⟩] := by
  unfold ArgumentParser.addArgument at h
  split_ifs at h
  cases h
  rfl

/-- A walk that succeeds adds an action for each value, and nothing else. -/
theorem actions_walkAddArg {T : CaseTable} {pre : List Str} {parser parser' : ArgumentParser}
    (h : walkAddArg T pre cls parser = .ok parser') :
    parser'.actions = parser.actions ++ (cls.leafPaths pre).map (actionOf T) := by
  induction cls generalizing pre parser parser' with
  | nil =>
    rw [walkAddArg] at h
    cases h
    simp [ConfigFields.leafPaths]
  | value name rest ih =>
    rw [walkAddArg] at h
    obtain ⟨parser₁, hadd, h⟩ := bind_eq_ok.1 h
    have hrest := ih h
    rw [hrest, actions_addArgument hadd, List.append_assoc]
    rfl
  | nested name fields rest ihfields ihrest =>
    rw [walkAddArg] at h
    obtain ⟨parser₁, hwalk, h⟩ := bind_eq_ok.1 h
    have hrest := ihrest h
    rw [hrest, ihfields hwalk, List.append_assoc, ← List.map_append]
    rfl

/-- The parser of a class without a conflict has the actions of its values. -/
theorem actions_workerConfigOptions {T : CaseTable} {cls : ConfigClass} {parser : ArgumentParser}
    (h : workerConfigOptions T cls .new [] = .ok parser) :
    parser.actions = (cls.fields.leafPaths [[]]).map (actionOf T) := by
  rw [actions_walkAddArg h]
  rfl

/-- An option belongs to one value. -/
theorem optionOf_inj {T : CaseTable} {cls : ConfigClass} {parser : ArgumentParser}
    (h : workerConfigOptions T cls .new [] = .ok parser) {path path' : List Str}
    (hpath : IsLeaf cls.fields path) (hpath' : IsLeaf cls.fields path')
    (heq : optionOf T path = optionOf T path') : path = path' := by
  have hnodup := (List.nodup_append.1 parser.nodup).2.1
  rw [actions_workerConfigOptions h, List.map_map] at hnodup
  -- Both are options of actions of the parser, and no two of these have the same.
  have hmem := mem_leafPaths [[]] hpath
  have hmem' := mem_leafPaths [[]] hpath'
  have hparts := List.inj_on_of_nodup_map hnodup hmem hmem' heq
  exact (List.cons.inj hparts).2

/-- So does a key of the namespace. -/
theorem cliKey_inj {T : OptionCase} {cls : ConfigClass} {parser : ArgumentParser}
    (h : workerConfigOptions T.toCaseTable cls .new [] = .ok parser) {path path' : List Str}
    (hpath : IsLeaf cls.fields path) (hpath' : IsLeaf cls.fields path')
    (heq : createCliKey ([] :: path) = createCliKey ([] :: path')) : path = path' := by
  refine optionOf_inj h hpath hpath' ?_
  unfold optionOf
  rw [createArgumentKey_eq, createArgumentKey_eq, heq]

/-! ## Parsing one option -/

/-- The option of a value stands for the action of that value. -/
theorem findAction_optionOf {T : CaseTable} {cls : ConfigClass} {parser : ArgumentParser}
    (h : workerConfigOptions T cls .new [] = .ok parser) (hpath : IsLeaf cls.fields path) :
    parser.findAction (optionOf T path) = some (actionOf T ([] :: path)) := by
  have hmem : actionOf T ([] :: path) ∈ parser.actions := by
    rw [actions_workerConfigOptions h]
    exact List.mem_map_of_mem (mem_leafPaths [[]] hpath)
  unfold ArgumentParser.findAction
  cases hfind : parser.actions.find? fun a => a.option_string = optionOf T path with
  | none => exact absurd (decide_eq_true rfl) (List.find?_eq_none.1 hfind _ hmem)
  | some a =>
    -- The destination of an action depends on its option string alone.
    have ha : a.option_string = optionOf T path := by
      simpa using List.find?_some hfind
    have haction := List.mem_of_find?_eq_some hfind
    rw [actions_workerConfigOptions h] at haction
    obtain ⟨parts, -, rfl⟩ := List.mem_map.1 haction
    have hsame : actionOf T parts = ⟨optionOf T path, optionDest (optionOf T path)⟩ := by
      rw [← ha]
      rfl
    exact congrArg some hsame

variable {attrs : Str → Option (PyLeaf α)}

namespace ArgNamespace

/-- A value that was set is found under its destination, and under no other name. -/
theorem getattr_set (namespc : ArgNamespace α) (dest : Str) (v : PyLeaf α) (name : Str) :
    getattr attrs (namespc.set dest v) name =
      if name = dest then v else getattr attrs namespc name := by
  unfold getattr
  rw [Dict.get?_set]
  split_ifs with heq
  · rfl
  · rfl

/-- The defaults are no change to what is read. -/
theorem getattr_setDefaults (actions : List StoreAction) (namespc : ArgNamespace α) (name : Str) :
    getattr attrs (setDefaults attrs actions namespc) name = getattr attrs namespc name := by
  induction actions generalizing namespc with
  | nil => rfl
  | cons a actions ih =>
    rw [setDefaults]
    split_ifs with hhas
    · exact ih namespc
    · -- The attribute was missing, which is read as `None` too.
      rw [ih, getattr_set]
      split_ifs with heq
      · rw [Bool.or_eq_true, not_or, Dict.contains_eq_isSome, Option.not_isSome_iff_eq_none,
          Option.not_isSome_iff_eq_none] at hhas
        unfold getattr
        rw [heq, hhas.1, hhas.2]
        rfl
      · rfl

end ArgNamespace

/-- What is read from the namespace of a command line that gives one option. -/
def parsedAttr (attrs : Str → Option (PyLeaf α)) (dest value name : Str) : PyLeaf α :=
  if name = dest then .string value else (attrs name).getD .none

/-- An argument is an option up to its first equals sign, and the value behind it. -/
theorem split_option {option : Str} (hoption : ofChar '=' ∉ option) (value : Str) :
    (option ++ str "=" ++ value).takeWhile (fun c => c ≠ ofChar '=') = option ∧
      (option ++ str "=" ++ value).dropWhile (fun c => c ≠ ofChar '=') = ofChar '=' :: value := by
  have hall : ∀ c ∈ option, decide (c ≠ ofChar '=') = true := by
    intro c hc
    exact decide_eq_true fun heq => hoption (heq ▸ hc)
  constructor
  · rw [List.append_assoc, List.takeWhile_append_of_pos hall]
    exact List.append_nil option
  · rw [List.append_assoc, List.dropWhile_append_of_pos hall]
    rfl

/-- An option with a value stores the value under its destination. -/
theorem parseArgs_of_findAction (attrs : Str → Option (PyLeaf α)) {parser : ArgumentParser}
    {option : Str} {a : StoreAction} (hfind : parser.findAction option = some a)
    (hoption : ofChar '=' ∉ option) (value : Str) :
    ∃ namespc : ArgNamespace α, parser.parseArgs attrs (option ++ str "=" ++ value) = .ok namespc ∧
      ∀ name, namespc.getattr attrs name = parsedAttr attrs a.dest value name := by
  obtain ⟨hbefore, hafter⟩ := split_option hoption value
  refine ⟨(ArgNamespace.setDefaults attrs parser.actions .empty).set a.dest (.string value), ?_,
    fun name => ?_⟩
  · unfold ArgumentParser.parseArgs
    rw [hbefore, hafter, hfind]
  · rw [ArgNamespace.getattr_set, ArgNamespace.getattr_setDefaults]
    rfl

/-! ## Every option reaches its field -/

/-- The key of a path under the empty prefix is that of the path. -/
theorem createCliKey_nil_cons (path : List Str) : createCliKey ([] :: path) = createCliKey path :=
  rfl

/-- The key of a path of names has all of them. -/
theorem createCliKey_of_isName (h : ∀ name ∈ path, IsName name) :
    createCliKey path = [ofChar '_'].intercalate path := by
  have hall : ∀ name ∈ path, (!name.isEmpty) = true := by
    intro name hname
    simpa using (h name hname).ne_nil
  unfold createCliKey
  rw [List.filter_eq_self.2 hall]
  rfl

/-- What is in a joined text is the separator or in a part. -/
theorem mem_intercalate {d c : CodePoint} {parts : List Str} (h : c ∈ [d].intercalate parts) :
    c = d ∨ ∃ s ∈ parts, c ∈ s := by
  induction parts with
  | nil => exact absurd h List.not_mem_nil
  | cons s parts ih =>
    cases parts with
    | nil =>
      rw [List.intercalate_singleton] at h
      exact .inr ⟨s, List.mem_cons_self, h⟩
    | cons s' parts =>
      rw [List.intercalate_cons_cons, List.mem_append, List.mem_append, List.mem_singleton] at h
      rcases h with (hs | hd) | hrest
      · exact .inr ⟨s, List.mem_cons_self, hs⟩
      · exact .inl hd
      · rcases ih hrest with hd | ⟨s₁, hs₁, hc⟩
        · exact .inl hd
        · exact .inr ⟨s₁, List.mem_cons_of_mem _ hs₁, hc⟩

/-- What is in no name is not in the key. -/
theorem not_mem_createCliKey {c : CodePoint} (hc : c ≠ ofChar '_')
    (h : ∀ name ∈ path, c ∉ name) : c ∉ createCliKey path := by
  intro hmem
  rcases mem_intercalate hmem with hd | ⟨name, hname, hin⟩
  · exact hc hd
  · exact h name (List.mem_filter.1 hname).1 hin

/-- What is in a text after a replacement is the new character or was there before. -/
theorem mem_replaceChar {old new c : CodePoint} {s : Str} (h : c ∈ replaceChar old new s) :
    c = new ∨ c ∈ s := by
  obtain ⟨c', hc', rfl⟩ := List.mem_map.1 h
  split_ifs
  · exact .inl rfl
  · exact .inr hc'

/-- The end of the option comes before the value. -/
theorem equals_not_mem_optionOf (T : OptionCase) (h : ∀ name ∈ path, IsName name) :
    ofChar '=' ∉ optionOf T.toCaseTable path := by
  intro hmem
  unfold optionOf at hmem
  rw [createArgumentKey_eq, List.mem_append] at hmem
  rcases hmem with hdashes | hkey
  · exact absurd hdashes (by decide)
  · rcases mem_replaceChar hkey with hdash | hlower
    · exact absurd hdash (by decide)
    · rw [CaseTable.mem_lowerStr T.equals, createCliKey_nil_cons] at hlower
      exact not_mem_createCliKey (by decide) (fun name hname => (h name hname).equals) hlower

/-- Where the start of a text is dropped, and no such character is missing, nothing is. -/
theorem dropWhile_eq_self_of_count {d : CodePoint} {s : Str}
    (h : (s.dropWhile fun c => c = d).count d = s.count d) :
    (s.dropWhile fun c => c = d) = s ∧ s.head? ≠ some d := by
  cases s with
  | nil => exact ⟨rfl, nofun⟩
  | cons c s =>
    by_cases hc : c = d
    · -- The rest would have the first character once more.
      have hle : (s.dropWhile fun c => c = d).count d ≤ s.count d :=
        (List.dropWhile_sublist _).count_le d
      rw [List.dropWhile_cons, if_pos (decide_eq_true hc), hc, List.count_cons_self] at h
      omega
    · rw [List.dropWhile_cons, if_neg (by simpa using hc)]
      exact ⟨rfl, fun heq => hc (Option.some.inj heq)⟩

/-- The destination of the option of a path. -/
theorem dest_actionOf (T : OptionCase) (h : ∀ name ∈ path, IsName name) :
    (actionOf T.toCaseTable ([] :: path)).dest =
      (T.lowerStr (createCliKey path)).dropWhile fun c => c = ofChar '_' := by
  have hdash : ofChar '-' ∉ T.lowerStr (createCliKey path) := by
    rw [CaseTable.mem_lowerStr T.dash]
    exact not_mem_createCliKey (by decide) fun name hname => (h name hname).dash
  unfold actionOf
  rw [createArgumentKey_eq, createCliKey_nil_cons]
  exact optionDest_replaceChar hdash

/-- A key starts as its first name does. -/
theorem head?_createCliKey (h : ∀ name ∈ path, IsName name) :
    (createCliKey path).head? = path.head?.bind List.head? := by
  rw [createCliKey_of_isName h]
  cases path with
  | nil => rfl
  | cons name rest =>
    obtain ⟨c, name, rfl⟩ := List.exists_cons_of_ne_nil (h name List.mem_cons_self).ne_nil
    cases rest with
    | nil => rw [List.intercalate_singleton]; rfl
    | cons name' rest => rw [List.intercalate_cons_cons_left]; rfl

/-- The destination is the key exactly if the key is in lower case and starts with no underscore. -/
theorem dest_eq_key_iff (T : OptionCase) (h : ∀ name ∈ path, IsName name) :
    createCliKey path = (actionOf T.toCaseTable ([] :: path)).dest ↔
      (∀ name ∈ path, T.lowerStr name = name) ∧
        ∀ name, path.head? = some name → name.head? ≠ some (ofChar '_') := by
  have hkey := createCliKey_of_isName h
  have hhead := head?_createCliKey h
  have hlower := CaseTable.lowerStr_intercalate_eq_iff T.underscore path
  rw [← hkey] at hlower
  rw [dest_actionOf T h, ← hlower]
  constructor
  · intro heq
    -- `str.lower` keeps the number of underscores, so none can be missing at the start.
    have hcount : ((T.lowerStr (createCliKey path)).dropWhile fun c => c = ofChar '_').count
        (ofChar '_') = (T.lowerStr (createCliKey path)).count (ofChar '_') := by
      rw [← heq, CaseTable.count_lowerStr T.underscore.toFixes]
    obtain ⟨hsame, hfirst⟩ := dropWhile_eq_self_of_count hcount
    rw [hsame] at heq
    refine ⟨heq.symm, fun name hname hunderscore => ?_⟩
    rw [← heq, hhead, hname] at hfirst
    exact hfirst hunderscore
  · rintro ⟨hsame, hfirst⟩
    rw [hsame]
    cases hchars : createCliKey path with
    | nil => rfl
    | cons c rest =>
      -- The first character is that of the first name.
      rw [hchars] at hhead
      obtain ⟨name, hname, hc⟩ := Option.bind_eq_some_iff.1 hhead.symm
      have hne : c ≠ ofChar '_' := fun heq => hfirst name hname (heq ▸ hc)
      rw [List.dropWhile_cons, if_neg (by simpa using hne)]

/-- The option of the value at a path, given any value, puts that value there and nothing else
anywhere. -/
def ReachesField (κ : Type) [DecidableEq κ] (T : CaseTable) (attrs : Str → Option (PyLeaf α))
    (cls : ConfigClass) (parser : ArgumentParser) (path : List Str) : Prop :=
  ∀ value, ∃ config : Config κ α,
    configOfArg κ attrs cls parser (optionOf T path) value = .ok config ∧
      HoldsOnly cls.fields path value config

/-- When an option reaches its field. -/
structure ReadBack (T : CaseTable) (attrs : Str → Option (PyLeaf α)) (cls : ConfigFields)
    (path : List Str) : Prop where
  /-- The names are in lower case. -/
  lower : ∀ name ∈ path, T.lowerStr name = name
  /-- The first starts with no underscore. -/
  first : ∀ name, path.head? = some name → name.head? ≠ some (ofChar '_')
  /-- No other value has the key of an attribute that every namespace has. -/
  others : ∀ other, IsLeaf cls other → other ≠ path →
    (attrs (createCliKey other)).getD .none = .none

/-- A command line that gives the option of a value is parsed, and the walk reads it back. -/
theorem configOfArg_optionOf (κ : Type) (attrs : Str → Option (PyLeaf α)) {T : OptionCase}
    {cls : ConfigClass} {parser : ArgumentParser}
    (h : workerConfigOptions T.toCaseTable cls .new [] = .ok parser)
    (hnames : cls.fields.Identifiers) (hpath : IsLeaf cls.fields path) (value : Str) :
    configOfArg κ attrs cls parser (optionOf T.toCaseTable path) value =
      .ok (walked κ (fun parts => parsedAttr attrs (actionOf T.toCaseTable ([] :: path)).dest value
        (createCliKey parts)) [[]] cls.fields) := by
  obtain ⟨namespc, hparse, hread⟩ := parseArgs_of_findAction attrs (findAction_optionOf h hpath)
    (equals_not_mem_optionOf T (isName_of_isLeaf hnames hpath)) value
  unfold configOfArg
  rw [hparse, ok_bind, funext hread]
  rfl

variable {κ : Type} [DecidableEq κ] {T : OptionCase} {cls : ConfigClass} {parser : ArgumentParser}

/-- An option reaches its field if its value is read for that field, and nothing for the others. -/
theorem reachesField_iff_parsedAttr
    (h : workerConfigOptions T.toCaseTable cls .new [] = .ok parser)
    (hnames : cls.fields.Identifiers) (hpath : IsLeaf cls.fields path) :
    ReachesField κ T.toCaseTable attrs cls parser path ↔ ∀ value,
      parsedAttr attrs (actionOf T.toCaseTable ([] :: path)).dest value (createCliKey path) =
          .string value ∧
        ∀ other, IsLeaf cls.fields other → other ≠ path →
          parsedAttr attrs (actionOf T.toCaseTable ([] :: path)).dest value (createCliKey other) =
            .none := by
  refine forall_congr' fun value => ?_
  have hconfig := configOfArg_optionOf κ attrs h hnames hpath value
  constructor
  · rintro ⟨config, hok, honly⟩
    rw [hconfig] at hok
    rw [← Except.ok.inj hok] at honly
    exact (holdsOnly_walked_iff cls.named hpath).1 honly
  · intro hsource
    exact ⟨_, hconfig, (holdsOnly_walked_iff cls.named hpath).2 hsource⟩

/-- An attribute has every value that the option is given only if it is the destination. -/
theorem eq_dest_of_parsedAttr {dest name : Str}
    (h : ∀ value, parsedAttr attrs dest value name = .string value) : name = dest := by
  by_contra hne
  -- What every namespace has does not depend on the value.
  have hread : ∀ value, (attrs name).getD .none = .string value := by
    intro value
    rw [← h value]
    exact (if_neg hne).symm
  have htwo := (hread []).symm.trans (hread (str "x"))
  cases htwo

/-- An option reaches its field exactly if all names on the path are in lower case, the first does
not start with an underscore, and no other value is read from what every namespace has. -/
theorem reachesField_iff (T : OptionCase) (attrs : Str → Option (PyLeaf α))
    (hnames : cls.fields.Identifiers)
    (h : workerConfigOptions T.toCaseTable cls .new [] = .ok parser)
    (hpath : IsLeaf cls.fields path) :
    ReachesField κ T.toCaseTable attrs cls parser path ↔
      ReadBack T.toCaseTable attrs cls.fields path := by
  have hkey := dest_eq_key_iff T (isName_of_isLeaf hnames hpath)
  rw [reachesField_iff_parsedAttr h hnames hpath]
  -- The key of another value is not the destination.
  have hother : ∀ {dest other}, createCliKey path = dest → IsLeaf cls.fields other →
      other ≠ path → ∀ value, parsedAttr attrs dest value (createCliKey other) =
        (attrs (createCliKey other)).getD .none := by
    rintro dest other rfl hleaf hne value
    exact if_neg fun heq => hne (cliKey_inj h hleaf hpath heq)
  constructor
  · intro hreads
    have hdest := eq_dest_of_parsedAttr fun value => (hreads value).1
    obtain ⟨hlower, hfirst⟩ := hkey.1 hdest
    refine ⟨hlower, hfirst, fun other hleaf hne => ?_⟩
    rw [← hother hdest hleaf hne []]
    exact (hreads []).2 other hleaf hne
  · rintro ⟨hlower, hfirst, hothers⟩ value
    have hdest := hkey.2 ⟨hlower, hfirst⟩
    refine ⟨if_pos hdest, fun other hleaf hne => ?_⟩
    rw [hother hdest hleaf hne]
    exact hothers other hleaf hne

/-! ## On given inputs -/

namespace CommandLineExample

/-- The lower case of an ASCII character. -/
def asciiLower (c : CodePoint) : Str :=
  [if 65 ≤ c.val ∧ c.val ≤ 90 then ofByte (UInt8.ofNat (c.val + 32)) else c]

/-- Lower case leaves what is no letter in lower case. -/
theorem mem_asciiLower {c d : CodePoint} (hd : d.val < 97 ∨ 122 < d.val) (h : d ∈ asciiLower c) :
    c = d := by
  have heq := List.mem_singleton.1 h
  split_ifs at heq with hupper
  · have hval : d.val = c.val + 32 := by
      rw [heq, ofByte_val, UInt8.toNat_ofNat']
      omega
    omega
  · exact heq.symm

/-- The case of the ASCII characters. -/
def asciiTable : CaseTable where
  lower := asciiLower
  cased c := (65 ≤ c.val && c.val ≤ 90) || (97 ≤ c.val && c.val ≤ 122)
  caseIgnorable c := c.val == 39 || c.val == 46 || c.val == 58 || c.val == 94 || c.val == 96

/-- The ASCII table leaves all characters that are no capital letters. -/
theorem fixes_asciiTable {d : CodePoint} (hd : d.val < 65 ∨ 90 < d.val ∧ d.val < 97) :
    asciiTable.Fixes d := by
  refine ⟨by omega, ?_, fun c => mem_asciiLower (by omega)⟩
  have hupper : ¬ (65 ≤ d.val ∧ d.val ≤ 90) := by omega
  exact congrArg (fun c => [c]) (if_neg hupper)

/-- The case of the ASCII characters, as far as options rely on it. -/
def asciiCase : OptionCase where
  toCaseTable := asciiTable
  underscore := ⟨fixes_asciiTable (by decide), by decide, by decide⟩
  dash := fixes_asciiTable (by decide)
  equals := fixes_asciiTable (by decide)

/-- A text without a hyphen and an equals sign is a name. -/
theorem isName {name : Str} (h : name ≠ [] ∧ ofChar '-' ∉ name ∧ ofChar '=' ∉ name) :
    IsName name := ⟨h.1, h.2.1, h.2.2⟩

/-- A class with one field, `Foo`. -/
def fooConfig : ConfigClass := ⟨.value (str "Foo") .nil, ⟨rfl, trivial⟩⟩

/-- The class with one field has names for its fields. -/
theorem identifiers_fooConfig : fooConfig.fields.Identifiers :=
  ⟨isName (by decide), trivial⟩

/-- A class with a section. -/
def nestedConfig : ConfigClass :=
  ⟨.nested (str "amqp") amqpConfig (.value (str "amqp_url") .nil),
    ⟨rfl, ⟨rfl, rfl, rfl, rfl, rfl, trivial⟩, rfl, trivial⟩⟩

/-- The class with a nested one has names for its fields. -/
theorem identifiers_nestedConfig : nestedConfig.fields.Identifiers :=
  ⟨isName (by decide),
    ⟨isName (by decide), isName (by decide), isName (by decide), isName (by decide),
      isName (by decide), trivial⟩, isName (by decide), trivial⟩

end CommandLineExample

open CommandLineExample

/-- The option of `Foo` is `--foo`, and its value is not read back. -/
theorem upper_case_not_reachesField :
    fooConfig.fields.Identifiers ∧ IsLeaf fooConfig.fields [str "Foo"] ∧
      ∃ parser, workerConfigOptions asciiTable fooConfig .new [] = .ok parser ∧
        ¬ ReachesField Empty asciiTable (fun _ => (none : Option (PyLeaf Empty))) fooConfig parser
          [str "Foo"] := by
  refine ⟨identifiers_fooConfig, rfl, ⟨[actionOf asciiTable [[], str "Foo"]], by decide⟩, rfl, ?_⟩
  intro hreaches
  obtain ⟨config, hconfig, honly⟩ := hreaches (str "x")
  have hempty : configOfArg Empty (fun _ => (none : Option (PyLeaf Empty))) fooConfig
      ⟨[actionOf asciiTable [[], str "Foo"]], by decide⟩ (optionOf asciiTable [str "Foo"])
        (str "x") = .ok (.mapping []) := rfl
  rw [hempty] at hconfig
  rw [← Except.ok.inj hconfig] at honly
  have hleaf := (honly.leaf [.name (str "Foo")] (.string (str "x"))).2 ⟨rfl, rfl⟩
  cases hleaf

/-- The option of `amqp.hostname`. -/
theorem hostname_reachesField_iff : ∃ parser,
    workerConfigOptions asciiTable nestedConfig .new [] = .ok parser ∧
      (ReachesField Empty asciiTable (fun _ => (none : Option (PyLeaf Empty))) nestedConfig parser
          [str "amqp", str "hostname"] ↔
        ReadBack asciiTable (fun _ => (none : Option (PyLeaf Empty))) nestedConfig.fields
          [str "amqp", str "hostname"]) :=
  ⟨⟨(nestedConfig.fields.leafPaths [[]]).map (actionOf asciiTable), by decide⟩, rfl,
    reachesField_iff asciiCase _ identifiers_nestedConfig rfl rfl⟩

end Vumi2
