import Vumi2.Lib.Nested
import Vumi2.Runtime

/-!
# Configuration

`config.py` up to the structuring of the merged configuration. A configuration class is the list of
its fields, each of which holds a value or is a configuration class itself. A configuration is a
nested dictionary of Python values.

Parameters stand for what is not in the program: `upper` is `str.upper`, `environ` is `os.environ`,
`cli` gives the attributes of the parsed arguments, and `safeLoad` what `yaml.safe_load` makes of
the file at a path. The values of `environ` are strings. Those of `cli` are strings too, as its
parser gives them, but may here be any value that is no dictionary.
-/

namespace Vumi2

open Text

/-- A key of a dictionary: a string, or some other value, of which a file may have some too. -/
inductive Key (κ : Type) where
  | name (s : Str)
  | other (k : κ)
deriving DecidableEq

/-- A Python value that is not a dictionary. -/
inductive PyLeaf (α : Type) where
  | none
  | string (s : Str)
  | other (a : α)

/-- `dict[str, Any]`, and the values in it. -/
abbrev Config (κ α : Type) : Type := Nested (Key κ) (PyLeaf α)

/-- What `fields(cls)` lists, of an attrs class: the names, and which types are attrs classes. -/
inductive ConfigFields where
  | nil
  /-- A field of any other type, before the rest. -/
  | value (name : Str) (rest : ConfigFields)
  /-- A field whose type is an attrs class, before the rest. -/
  | nested (name : Str) (fields : ConfigFields) (rest : ConfigFields)

/-- What is known of the type of a field. -/
inductive FieldType where
  | value
  | nested (fields : ConfigFields)

namespace ConfigFields

/-- The type of the field of this name. -/
def field? : ConfigFields → Str → Option FieldType
  | nil, _ => none
  | value name rest, k => if k = name then some .value else rest.field? k
  | nested name fields rest, k => if k = name then some (.nested fields) else rest.field? k

/-- No class has two fields of one name. -/
def Named : ConfigFields → Prop
  | nil => True
  | value name rest => rest.field? name = none ∧ rest.Named
  | nested name fields rest => rest.field? name = none ∧ fields.Named ∧ rest.Named

end ConfigFields

/-- An attrs class whose fields are configured. -/
structure ConfigClass where
  fields : ConfigFields
  /-- The fields of a class have different names. -/
  named : fields.Named

/-- `AmqpConfig`. -/
def amqpConfig : ConfigFields :=
  .value (str "hostname") <| .value (str "port") <| .value (str "username") <|
    .value (str "password") <| .value (str "vhost") .nil

/-- The fields of `BaseConfig`. -/
def baseFields : ConfigFields :=
  .nested (str "amqp") amqpConfig <| .value (str "amqp_url") <|
    .value (str "worker_concurrency") <| .value (str "sentry_dsn") <| .value (str "http_bind") <|
      .value (str "log_level") <| .value (str "middlewares") .nil

/-- No two fields of the base configuration share a name. -/
theorem named_baseFields : baseFields.Named :=
  ⟨rfl, ⟨rfl, rfl, rfl, rfl, rfl, trivial⟩, rfl, rfl, rfl, rfl, rfl, rfl, trivial⟩

/-- `BaseConfig`. -/
def baseConfig : ConfigClass := ⟨baseFields, named_baseFields⟩

variable {κ α : Type} [DecidableEq κ]

/-- `walk_config_class`, whose callback gets the name of a field and the prefix. -/
def walkConfigClass (fn : Str → List Str → PyLeaf α) :
    List Str → ConfigFields → List (Key κ × Config κ α)
  | _, .nil => []
  | pre, .value name rest =>
    match fn name pre with
    | .none => walkConfigClass fn pre rest
    | v => (.name name, .leaf v) :: walkConfigClass fn pre rest
  | pre, .nested name fields rest =>
    (.name name, .mapping (walkConfigClass fn (pre ++ [name]) fields)) ::
      walkConfigClass fn pre rest

/-- `_create_env_var_key`. -/
def createEnvVarKey (upper : Str → Str) (parts : List Str) : Str :=
  (str "_").intercalate ((parts.filter fun part => !part.isEmpty).map upper)

/-- `_create_cli_key`. -/
def createCliKey (parts : List Str) : Str :=
  (str "_").intercalate (parts.filter fun part => !part.isEmpty)

/-- `source.get(key, None)`. -/
def getEnv (environ : Str → Option Str) (key : Str) : PyLeaf α :=
  match environ key with
  | some v => .string v
  | none => .none

/-- `load_config_from_environment`. -/
def loadConfigFromEnvironment (upper : Str → Str) (cls : ConfigClass) (pre : Str)
    (source : Str → Option Str) : Config κ α :=
  .mapping (walkConfigClass
    (fun name pre => getEnv source (createEnvVarKey upper (pre ++ [name]))) [pre] cls.fields)

/-- `load_config_from_cli`. An attribute that the namespace does not have is `None`. -/
def loadConfigFromCli (source : Str → PyLeaf α) (cls : ConfigClass) (pre : Str) : Config κ α :=
  .mapping
    (walkConfigClass (fun name pre => source (createCliKey (pre ++ [name]))) [pre] cls.fields)

/-- The dictionary that a value is, for the loop over `d.items()`; other values have no `items`. -/
def asDict : Config κ α → Except PyExc (Dict (Key κ) (Config κ α))
  | .leaf _ => .error .attributeError
  | .mapping items => .ok (.ofItems items)

mutual

/-- What `_combine_nested_dictionaries` sets a key of `result` to, for a value `v` of the key in the
next dictionary: `current` is `result.get(k)`. The recursive call for a dictionary `v` begins by
copying what is there, entry by entry, and the copy is equal (`mergeInto_empty`). -/
def overlay (current : Option (Config κ α)) : Config κ α → Except PyExc (Config κ α)
  | .leaf a => .ok (.leaf a)
  | .mapping items =>
    (asDict (current.getD (.mapping []))) >>= fun result =>
      (mergeInto result items) >>= fun d => .ok (.mapping d.items)

/-- The inner loop of `_combine_nested_dictionaries`. -/
def mergeInto (result : Dict (Key κ) (Config κ α)) :
    List (Key κ × Config κ α) → Except PyExc (Dict (Key κ) (Config κ α))
  | [] => .ok result
  | (k, v) :: items => (overlay (result.get? k) v) >>= fun x => mergeInto (result.set k x) items

end

/-- The outer loop of `_combine_nested_dictionaries`, from a `result` on. -/
def combineFrom (result : Dict (Key κ) (Config κ α)) :
    List (Config κ α) → Except PyExc (Dict (Key κ) (Config κ α))
  | [] => .ok result
  | .leaf _ :: _ => .error .attributeError
  | .mapping items :: args => (mergeInto result items) >>= fun d => combineFrom d args

/-- `_combine_nested_dictionaries`. -/
def combineNestedDictionaries (args : List (Config κ α)) :
    Except PyExc (Dict (Key κ) (Config κ α)) := combineFrom .empty args

/-- What `yaml.safe_load` returns. A dictionary has no key twice. -/
structure Loaded (κ α : Type) where
  config : Config κ α
  keyed : config.Keyed

/-- `{}`. -/
def Loaded.empty : Loaded κ α :=
  ⟨.mapping [], .mapping List.nodup_nil fun _ he => absurd he List.not_mem_nil⟩

/-- `load_config_from_file`. -/
def loadConfigFromFile (safeLoad : Str → Loaded κ α) : Option Str → Loaded κ α
  | none => .empty
  | some path => safeLoad path

/-- `config_path` in `load_config`. -/
def configPath (environ : Str → Option Str) : Option Str :=
  match (environ (str "VUMI_CONFIG_FILE")).getD [] with
  | [] => none
  | path => some path

/-- `config_prefix` in `load_config`. -/
def configPrefix (environ : Str → Option Str) : Str :=
  (environ (str "VUMI_CONFIG_PREFIX")).getD []

/-- `config_dict` in `load_config`. -/
def configDict (upper : Str → Str) (environ : Str → Option Str) (safeLoad : Str → Loaded κ α)
    (cls : ConfigClass) (cli : Str → PyLeaf α) : Except PyExc (Dict (Key κ) (Config κ α)) :=
  combineNestedDictionaries
    [(loadConfigFromFile safeLoad (configPath environ)).config,
      loadConfigFromEnvironment upper cls (configPrefix environ) environ,
      loadConfigFromCli cli cls []]

end Vumi2
