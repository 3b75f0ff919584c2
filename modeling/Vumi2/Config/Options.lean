import Vumi2.Config.CommandLine
import Vumi2.Config.Sources

/-!
# A setting from every source

The same values for some of the leaves of a class, from the file, from the environment, or as
options of a command line, in any order. From the file and the environment the object is the same
except for what no text reads back as. From the command line it is made of what `getattr` finds at
the keys of the leaves: the text of the last option that has the key for its destination, or what
every namespace has there (`parseAll_optionsOf`). These are the texts of the values themselves in a
class whose options reach their fields (`spoken_eq_assigned`): its names are in lower case, none at
the start of a path begins with an underscore, and no namespace has an attribute of the key of a
value already.
-/

namespace Vumi2

open Text Nested TypedFields

variable {α : Type}

namespace ArgumentParser

/-- The values of arguments of the form `--option=value`, stored one after another. -/
def storeArgs (parser : ArgumentParser) : List Str → ArgNamespace α → Except PyExc (ArgNamespace α)
  | [], namespc => .ok namespc
  | arg :: args, namespc =>
    match arg.dropWhile (fun c => c ≠ ofChar '='),
        parser.findAction (arg.takeWhile fun c => c ≠ ofChar '=') with
    | _ :: text, some a => storeArgs parser args (namespc.set a.dest (.string text))
    | _, _ => .error (.external "SystemExit" [])

/-- `parse_args` of such arguments. -/
def parseAll (attrs : Str → Option (PyLeaf α)) (parser : ArgumentParser) (args : List Str) :
    Except PyExc (ArgNamespace α) :=
  parser.storeArgs args (ArgNamespace.setDefaults attrs parser.actions .empty)

/-- The first argument sets the destination of its action. -/
theorem storeArgs_cons {parser : ArgumentParser} {option : Str} {a : StoreAction}
    (hfind : parser.findAction option = some a) (hoption : ofChar '=' ∉ option) (text : Str)
    (args : List Str) (namespc : ArgNamespace α) :
    parser.storeArgs ((option ++ str "=" ++ text) :: args) namespc =
      parser.storeArgs args (namespc.set a.dest (.string text)) := by
  obtain ⟨hbefore, hafter⟩ := split_option hoption text
  rw [storeArgs, hbefore, hafter, hfind]

end ArgumentParser

/-! ## The options of the values -/

/-- The options of the values of some leaves. -/
def optionsOf (T : CaseTable) {cls : TypedClass} (a : Assignment cls) (ls : List Leaf) : List Str :=
  ls.filterMap fun l => (a.value l.path).map fun v => optionOf T l.path ++ str "=" ++ v.text

/-- A leaf without a value has no option. -/
theorem optionsOf_cons_of_none {T : CaseTable} {cls : TypedClass} {a : Assignment cls} {l : Leaf}
    (h : a.value l.path = none) (ls : List Leaf) : optionsOf T a (l :: ls) = optionsOf T a ls := by
  unfold optionsOf
  rw [List.filterMap_cons, h]
  rfl

/-- A leaf with a value has the option of its path. -/
theorem optionsOf_cons_of_some {T : CaseTable} {cls : TypedClass} {a : Assignment cls} {l : Leaf}
    {v : PyValue} (h : a.value l.path = some v) (ls : List Leaf) :
    optionsOf T a (l :: ls) = (optionOf T l.path ++ str "=" ++ v.text) :: optionsOf T a ls := by
  unfold optionsOf
  rw [List.filterMap_cons, h]
  rfl

/-- What the options of some leaves make of the attribute of a name: the last option that has the
name for its destination sets it. -/
def attributeOf (T : CaseTable) {cls : TypedClass} (a : Assignment cls) :
    List Leaf → PyLeaf α → Str → PyLeaf α
  | [], before, _ => before
  | l :: ls, before, name =>
    attributeOf T a ls
      (if optionDest (optionOf T l.path) = name then
        ((a.value l.path).map fun v => .string v.text).getD before
      else before) name

/-- The options of a class can be registered. -/
def Registers (T : CaseTable) (cls : TypedClass) : Prop :=
  ∃ parser, workerConfigOptions T cls.erase .new [] = .ok parser

section

variable {T : OptionCase} {attrs : Str → Option (PyLeaf α)} {cls : TypedClass}
  {parser : ArgumentParser}

variable (attrs) in
/-- The options of leaves of the class are found, and set their destinations. -/
theorem storeArgs_optionsOf (h : workerConfigOptions T.toCaseTable cls.erase .new [] = .ok parser)
    (hnames : cls.fields.erase.Identifiers) (a : Assignment cls) {ls : List Leaf}
    (hls : ∀ l ∈ ls, l ∈ cls.fields.leaves []) (namespc : ArgNamespace α) :
    ∃ result, parser.storeArgs (optionsOf T.toCaseTable a ls) namespc = .ok result ∧
      ∀ name, result.getattr attrs name =
        attributeOf T.toCaseTable a ls (namespc.getattr attrs name) name := by
  induction ls generalizing namespc with
  | nil => exact ⟨namespc, rfl, fun name => rfl⟩
  | cons l ls ih =>
    obtain ⟨hl, hls⟩ := List.forall_mem_cons.1 hls
    cases hvalue : a.value l.path with
    | none =>
      -- The leaf has no option.
      obtain ⟨result, hresult, hread⟩ := ih hls namespc
      refine ⟨result, by rw [optionsOf_cons_of_none hvalue, hresult], fun name => ?_⟩
      rw [hread name, attributeOf, hvalue, Option.map_none, Option.getD_none, ite_self]
    | some v =>
      -- Its option sets the destination, and the options behind it leave it or set it again.
      obtain ⟨path, hpath, hleaf⟩ := isLeaf_of_mem_leaves cls.named hl
      rw [List.nil_append] at hpath
      rw [hpath] at hvalue
      have hfind := findAction_optionOf h hleaf
      have hoption := equals_not_mem_optionOf T (isName_of_isLeaf hnames hleaf)
      obtain ⟨result, hresult, hread⟩ :=
        ih hls (namespc.set (optionDest (optionOf T.toCaseTable path)) (.string v.text))
      refine ⟨result, ?_, fun name => ?_⟩
      · rw [optionsOf_cons_of_some (hpath ▸ hvalue), hpath,
          ArgumentParser.storeArgs_cons hfind hoption, ← hresult]
        rfl
      · rw [hread name, attributeOf, hpath, hvalue, ArgNamespace.getattr_set]
        by_cases hname : optionDest (optionOf T.toCaseTable path) = name
        · rw [if_pos hname, if_pos hname.symm]
          rfl
        · rw [if_neg hname, if_neg (Ne.symm hname)]

variable (attrs) in
/-- The namespace of the options. -/
theorem parseAll_optionsOf (h : workerConfigOptions T.toCaseTable cls.erase .new [] = .ok parser)
    (hnames : cls.fields.erase.Identifiers) (a : Assignment cls) {order : List Leaf}
    (horder : ∀ l ∈ order, l ∈ cls.fields.leaves []) :
    ∃ namespc, parser.parseAll attrs (optionsOf T.toCaseTable a order) = .ok namespc ∧
      ∀ name, namespc.getattr attrs name =
        attributeOf T.toCaseTable a order ((attrs name).getD .none) name := by
  obtain ⟨namespc, hparse, hread⟩ := storeArgs_optionsOf attrs h hnames a horder
    (ArgNamespace.setDefaults attrs parser.actions .empty)
  refine ⟨namespc, hparse, fun name => ?_⟩
  rw [hread name, ArgNamespace.getattr_setDefaults]
  rfl

/-- When the options of a class reach their fields: they can be registered, each is read back, and
no value has the key of an attribute that every namespace has. -/
structure HasOptions (T : OptionCase) (attrs : Str → Option (PyLeaf α)) (cls : TypedClass) :
    Prop where
  registers : Registers T.toCaseTable cls
  lower : ∀ l ∈ cls.fields.leaves [], ∀ name ∈ l.path, T.lowerStr name = name
  first : ∀ l ∈ cls.fields.leaves [], ∀ name, l.path.head? = some name →
    name.head? ≠ some (ofChar '_')
  attributes : ∀ l ∈ cls.fields.leaves [], (attrs (createCliKey l.path)).getD .none = .none

/-- The destination of the option of a leaf is its key. -/
theorem HasOptions.dest (h : HasOptions T attrs cls) (hnames : cls.fields.erase.Identifiers)
    {l : Leaf} (hl : l ∈ cls.fields.leaves []) :
    optionDest (optionOf T.toCaseTable l.path) = createCliKey l.path := by
  obtain ⟨path, hpath, hleaf⟩ := isLeaf_of_mem_leaves cls.named hl
  rw [List.nil_append] at hpath
  have hisName : ∀ name ∈ l.path, IsName name := hpath ▸ isName_of_isLeaf hnames hleaf
  exact ((dest_eq_key_iff T hisName).2 ⟨h.lower l hl, h.first l hl⟩).symm

/-- Different leaves have different keys. -/
theorem HasOptions.key_inj (h : HasOptions T attrs cls) {l l' : Leaf}
    (hl : l ∈ cls.fields.leaves []) (hl' : l' ∈ cls.fields.leaves [])
    (heq : createCliKey l.path = createCliKey l'.path) : l.path = l'.path := by
  obtain ⟨parser, hparser⟩ := h.registers
  obtain ⟨path, hpath, hleaf⟩ := isLeaf_of_mem_leaves cls.named hl
  obtain ⟨path', hpath', hleaf'⟩ := isLeaf_of_mem_leaves cls.named hl'
  rw [List.nil_append] at hpath hpath'
  rw [hpath, hpath'] at heq ⊢
  exact cliKey_inj hparser hleaf hleaf' heq

/-- The key of a leaf is set by the option of the leaf alone. -/
theorem HasOptions.attributeOf_key (h : HasOptions T attrs cls)
    (hnames : cls.fields.erase.Identifiers) (a : Assignment cls) {ls : List Leaf}
    (hls : ∀ l ∈ ls, l ∈ cls.fields.leaves []) {l : Leaf} (hl : l ∈ cls.fields.leaves [])
    (before : PyLeaf α) :
    attributeOf T.toCaseTable a ls before (createCliKey l.path) =
      if (ls.any fun l' => l'.path = l.path) = true then
        ((a.value l.path).map fun v => .string v.text).getD before
      else before := by
  induction ls generalizing before with
  | nil => rfl
  | cons l₁ ls ih =>
    obtain ⟨hl₁, hls⟩ := List.forall_mem_cons.1 hls
    rw [attributeOf, ih hls, List.any_cons, h.dest hnames hl₁]
    by_cases hpath : l₁.path = l.path
    · -- The option of the leaf sets the key, and may set it again.
      rw [hpath, if_pos rfl]
      cases a.value l.path with
      | none => simp
      | some v => simp
    · have hkey : createCliKey l₁.path ≠ createCliKey l.path := fun heq =>
        hpath (h.key_inj hl₁ hl heq)
      simp [hpath, hkey]

end

/-! ## The object that is loaded from the command line -/

variable {κ : Type} [DecidableEq κ]

/-- What `load_config` makes of a command line that gives the values of some leaves. -/
def loadFromOptions (C : TypeCalls κ α) (upper : Str → Str) (T : CaseTable)
    (attrs : Str → Option (PyLeaf (Scalar α))) {cls : TypedClass} (a : Assignment cls)
    (order : List Leaf) (inputs : ConfigInputs κ α) : Except PyExc ConfigObject :=
  (workerConfigOptions T cls.erase .new []) >>= fun parser =>
    (parser.parseAll attrs (optionsOf T a order)) >>= fun namespc =>
      loadConfig C upper cls ⟨inputs.environ, inputs.safeLoad, namespc.getattr attrs⟩

/-- The object is the same, or cannot be made, whichever source has the values. The options may come
in any order. -/
def SameFromEverySource (C : TypeCalls κ α) (upper : Str → Str) (T : CaseTable)
    (attrs : Str → Option (PyLeaf (Scalar α))) {cls : TypedClass} (a : Assignment cls) : Prop :=
  ∀ file environ other : ConfigInputs κ α, FromFile upper attrs a file →
    FromEnvironment upper attrs a environ →
      Supplies upper cls (fun _ => none) (fun _ => none) other →
      ∀ order : List Leaf, order.Perm (cls.fields.leaves []) →
        (loadConfig C upper cls file).toOption = (loadConfig C upper cls environ).toOption ∧
          (loadConfig C upper cls environ).toOption =
            (loadFromOptions C upper T attrs a order other).toOption

/-- What a leaf is set to by the attribute at its key. -/
def spoken (C : TypeCalls κ α) (T : CaseTable) (attrs : Str → Option (PyLeaf (Scalar α)))
    {cls : TypedClass} (a : Assignment cls) (order : List Leaf) (l : Leaf) : Option PyValue :=
  leafValue C (fun path =>
    given (attributeOf T a order (namespaceAttr attrs path) (createCliKey path))) l

/-- The command line can be parsed, and at the key of each leaf there is what gives the value that
the leaf has in the file, or nothing where it has its default there. -/
def ReadsAsWritten (C : TypeCalls κ α) (T : CaseTable) (attrs : Str → Option (PyLeaf (Scalar α)))
    {cls : TypedClass} (a : Assignment cls) : Prop :=
  Registers T cls ∧ ∀ order : List Leaf, order.Perm (cls.fields.leaves []) →
    ∀ l ∈ cls.fields.leaves [],
      spoken C T attrs a order l = assigned C attrs a PyValue.loaded l

/-- If the command line can be parsed, some leaf has nothing at its key that gives a value, and no
default. -/
def LacksALeaf (C : TypeCalls κ α) (T : CaseTable) (attrs : Str → Option (PyLeaf (Scalar α)))
    {cls : TypedClass} (a : Assignment cls) : Prop :=
  Registers T cls → ∀ order : List Leaf, order.Perm (cls.fields.leaves []) →
    ∃ l ∈ cls.fields.leaves [], spoken C T attrs a order l = none

section

variable {upper : Str → Str} {T : OptionCase} {attrs : Str → Option (PyLeaf (Scalar α))}
  {cls : TypedClass} {a : Assignment cls} {order : List Leaf} {inputs : ConfigInputs κ α}

/-- The object is made of what is at the keys of the leaves. -/
theorem loadFromOptions_of_registers (C : TypeCalls κ α) (h : Registers T.toCaseTable cls)
    (hnames : cls.fields.erase.Identifiers) (horder : order.Perm (cls.fields.leaves []))
    (hother : Supplies upper cls (fun _ => none) (fun _ => none) inputs) :
    (loadFromOptions C upper T.toCaseTable attrs a order inputs).toOption =
      (objectOf (spoken C T.toCaseTable attrs a order) [] cls.fields).map Nested.mapping := by
  obtain ⟨parser, hparser⟩ := h
  obtain ⟨namespc, hparse, hread⟩ := parseAll_optionsOf attrs hparser hnames a
    fun l hl => horder.mem_iff.1 hl
  -- The namespace is all that the command line adds to the other inputs.
  have hsupplies : Supplies upper cls (fun _ => none) (fun _ => none)
      (⟨inputs.environ, inputs.safeLoad, namespc.getattr attrs⟩ : ConfigInputs κ α) :=
    ⟨hother.readable, hother.file, hother.environ⟩
  -- At each leaf the environment and the file give nothing, so the attribute at its key decides.
  have hleaf : ∀ l ∈ cls.fields.leaves [], leafValue C
      ((⟨inputs.environ, inputs.safeLoad, namespc.getattr attrs⟩ : ConfigInputs κ α).raw upper) l =
        spoken C T.toCaseTable attrs a order l := by
    intro l hl
    have hraw := raw_of_supplies hsupplies hl
    dsimp only at hraw
    rw [hread, Option.map_none, Option.map_none, Option.or_none, Option.or_none] at hraw
    unfold spoken leafValue
    rw [hraw]
    rfl
  unfold loadFromOptions
  rw [hparser, ok_bind, hparse, ok_bind, toOption_loadConfig C upper cls hsupplies.readable,
    objectOf_congr hleaf]

omit [DecidableEq κ] in
/-- Where the options reach their fields, each leaf is set to what its type makes of its text. -/
theorem spoken_eq_assigned (C : TypeCalls κ α) (h : HasOptions T attrs cls)
    (hnames : cls.fields.erase.Identifiers) (horder : order.Perm (cls.fields.leaves [])) {l : Leaf}
    (hl : l ∈ cls.fields.leaves []) :
    spoken C T.toCaseTable attrs a order l = assigned C attrs a (fun v => .string v.text) l := by
  have hany : (order.any fun l' => l'.path = l.path) = true :=
    List.any_eq_true.2 ⟨l, horder.mem_iff.2 hl, decide_eq_true rfl⟩
  have hkey := h.attributeOf_key hnames a (fun l hl => horder.mem_iff.1 hl) hl
    (namespaceAttr attrs l.path)
  have hattr : namespaceAttr attrs l.path = .none := h.attributes l hl
  rw [if_pos hany, hattr] at hkey
  unfold spoken assigned leafValue
  dsimp only
  rw [hattr, hkey]
  cases a.value l.path with
  | none => rfl
  | some v => rfl

omit [DecidableEq κ] in
/-- An assignment that is complete makes the same object of the file and of the command line exactly
if each leaf reads what it has in the file. -/
theorem objectOf_loaded_eq_spoken_iff (C : TypeCalls κ α) (hcomplete : a.Complete C attrs) :
    objectOf (assigned C attrs a PyValue.loaded) [] cls.fields =
        objectOf (spoken C T.toCaseTable attrs a order) [] cls.fields ↔
      ∀ l ∈ cls.fields.leaves [],
        spoken C T.toCaseTable attrs a order l = assigned C attrs a PyValue.loaded l := by
  have hsome := (complete_iff C).1 hcomplete
  rw [Ne, objectOf_eq_none_iff] at hsome
  rw [objectOf_eq_iff, or_iff_right fun hnone => hsome hnone.1]
  exact forall₂_congr fun l hl => eq_comm

/-- Without a parser, the command line gives no object. -/
theorem loadFromOptions_of_not_registers (C : TypeCalls κ α) (h : ¬Registers T.toCaseTable cls) :
    (loadFromOptions C upper T.toCaseTable attrs a order inputs).toOption = none := by
  unfold loadFromOptions
  cases hparser : workerConfigOptions T.toCaseTable cls.erase .new [] with
  | ok parser => exact absurd ⟨parser, hparser⟩ h
  | error e => rfl

variable (attrs) in
/-- Which objects have to be the same. -/
theorem sameFromEverySource_iff_objectOf (C : TypeCalls κ α) {U : UpperTable}
    (hkeys : cls.DistinctKeys U) (hnames : cls.fields.erase.Identifiers) :
    SameFromEverySource C U.upperStr T.toCaseTable attrs a ↔
      ∀ order : List Leaf, order.Perm (cls.fields.leaves []) →
        objectOf (assigned C attrs a PyValue.loaded) [] cls.fields =
            objectOf (assigned C attrs a fun v => .string v.text) [] cls.fields ∧
          (Registers T.toCaseTable cls →
            objectOf (assigned C attrs a PyValue.loaded) [] cls.fields =
              objectOf (spoken C T.toCaseTable attrs a order) [] cls.fields) ∧
          (¬Registers T.toCaseTable cls →
            objectOf (assigned C attrs a PyValue.loaded) [] cls.fields = none) := by
  have hinj : Function.Injective (Option.map (Nested.mapping (κ := Str) (α := PyValue))) :=
    Option.map_injective fun x y h => Nested.mapping.inj h
  constructor
  · intro hsame order horder
    -- Every source can be given the values.
    have hfile : FromFile U.upperStr attrs a (⟨environOf U cls fun _ => none,
        fun _ => documentOf κ cls a.value, fun key => (attrs key).getD .none⟩ : ConfigInputs κ α) :=
      ⟨supplies_of_distinctKeys hkeys _ _ _, fun l hl => rfl⟩
    have henviron : FromEnvironment U.upperStr attrs a (⟨environOf U cls a.value,
        fun _ => documentOf κ cls fun _ => none, fun key => (attrs key).getD .none⟩ :
          ConfigInputs κ α) := ⟨supplies_of_distinctKeys hkeys _ _ _, fun l hl => rfl⟩
    have hother := supplies_of_distinctKeys (κ := κ) hkeys (fun _ => none) (fun _ => none)
      fun key => (attrs key).getD .none
    obtain ⟨htext, hspoken⟩ := hsame _ _ _ hfile henviron hother order horder
    rw [loadConfig_fromFile C hfile, loadConfig_fromEnvironment C henviron] at htext
    rw [loadConfig_fromEnvironment C henviron] at hspoken
    refine ⟨hinj htext, fun h => ?_, fun h => ?_⟩
    · rw [loadFromOptions_of_registers C h hnames horder hother] at hspoken
      exact hinj (htext.trans hspoken)
    · rw [loadFromOptions_of_not_registers C h] at hspoken
      exact Option.map_eq_none_iff.1 (htext.trans hspoken)
  · intro hsame file environ other hfile henviron hother order horder
    obtain ⟨htext, hspoken, hnone⟩ := hsame order horder
    rw [loadConfig_fromFile C hfile, loadConfig_fromEnvironment C henviron, ← htext]
    refine ⟨rfl, ?_⟩
    by_cases h : Registers T.toCaseTable cls
    · rw [loadFromOptions_of_registers C h hnames horder hother, hspoken h]
    · rw [loadFromOptions_of_not_registers C h, hnone h]
      rfl

end

/-- Values mean the same from every source exactly if no boolean is false, no integer has too many
digits and the command line reads as it is written, or, where some leaf lacks both a value and a
default, the command line lacks a leaf as well. Where the options reach their fields, the command
line adds nothing to this. -/
theorem sameFromEverySource_iff (C : TypeCalls κ α) {U : UpperTable} (T : OptionCase)
    (attrs : Str → Option (PyLeaf (Scalar α))) {cls : TypedClass} (hkeys : cls.DistinctKeys U)
    (hnames : cls.fields.erase.Identifiers) (a : Assignment cls) :
    (SameFromEverySource C U.upperStr T.toCaseTable attrs a ↔
        (a.Complete C attrs → a.ReadsBack attrs ∧ ReadsAsWritten C T.toCaseTable attrs a) ∧
        (¬a.Complete C attrs → LacksALeaf C T.toCaseTable attrs a)) ∧
      (HasOptions T attrs cls → (SameFromEverySource C U.upperStr T.toCaseTable attrs a ↔
        (a.Complete C attrs → a.ReadsBack attrs))) := by
  have hobject := sameFromEverySource_iff_objectOf (T := T) (a := a) attrs C hkeys hnames
  have hback := objectOf_loaded_eq_text_iff (a := a) attrs C
  have hfirst : SameFromEverySource C U.upperStr T.toCaseTable attrs a ↔
      (a.Complete C attrs → a.ReadsBack attrs ∧ ReadsAsWritten C T.toCaseTable attrs a) ∧
      (¬a.Complete C attrs → LacksALeaf C T.toCaseTable attrs a) := by
    rw [hobject]
    by_cases hcomplete : a.Complete C attrs
    · -- There is an object in the file, so the command line has to give one.
      have hsome := (complete_iff C).1 hcomplete
      rw [and_iff_left (absurd hcomplete), imp_iff_right hcomplete]
      constructor
      · intro hsame
        have hregisters : Registers T.toCaseTable cls := by
          by_contra hnone
          exact hsome ((hsame _ (.refl _)).2.2 hnone)
        refine ⟨hback.1 (hsame _ (.refl _)).1 hcomplete, hregisters, fun order horder => ?_⟩
        exact (objectOf_loaded_eq_spoken_iff C hcomplete).1 ((hsame order horder).2.1 hregisters)
      · rintro ⟨hvalues, hregisters, hreads⟩ order horder
        refine ⟨hback.2 fun _ => hvalues, fun _ => ?_, absurd hregisters⟩
        exact (objectOf_loaded_eq_spoken_iff C hcomplete).2 (hreads order horder)
    · -- There is none, and none in the environment.
      have hnone : objectOf (assigned C attrs a PyValue.loaded) [] cls.fields = none :=
        not_not.1 fun hsome => hcomplete ((complete_iff C).2 hsome)
      rw [and_iff_right (absurd · hcomplete), imp_iff_right hcomplete]
      unfold LacksALeaf
      constructor
      · intro hsame hregisters order horder
        rw [← objectOf_eq_none_iff, ← (hsame order horder).2.1 hregisters, hnone]
      · intro hlacks order horder
        refine ⟨hback.2 fun h => absurd h hcomplete, fun hregisters => ?_, fun _ => hnone⟩
        rw [hnone, (objectOf_eq_none_iff _ _).2 (hlacks hregisters order horder)]
  refine ⟨hfirst, fun hoptions => ?_⟩
  -- The command line gives the texts of the values.
  have hspoken : ∀ order : List Leaf, order.Perm (cls.fields.leaves []) →
      objectOf (spoken C T.toCaseTable attrs a order) [] cls.fields =
        objectOf (assigned C attrs a fun v => .string v.text) [] cls.fields :=
    fun order horder => objectOf_congr fun l hl => spoken_eq_assigned C hoptions hnames horder hl
  rw [hobject, ← hback]
  constructor
  · exact fun hsame => (hsame _ (.refl _)).1
  · intro htext order horder
    exact ⟨htext, fun _ => htext.trans (hspoken order horder).symm, absurd hoptions.registers⟩

/-! ## On given inputs -/

namespace SourcesExample

/-- The upper case of the ASCII characters. -/
def asciiUpper : UpperTable where
  upper c := [if 97 ≤ c.val ∧ c.val ≤ 122 then ofByte (UInt8.ofNat (c.val - 32)) else c]
  underscore := rfl

/-- `allow_expired_replies: bool = False`, of `JunebugMessageApiConfig`. -/
def expiredReplies : Leaf := ⟨[str "allow_expired_replies"], .bool, some (.bool false)⟩

/-- A class with this field. -/
def repliesConfig : TypedClass :=
  ⟨.value (str "allow_expired_replies") .bool (some (.bool false)) .nil, ⟨rfl, trivial⟩⟩

/-- The example has one leaf. -/
theorem eq_expiredReplies {l : Leaf} (hl : l ∈ repliesConfig.fields.leaves []) :
    l = expiredReplies := List.mem_singleton.1 hl

/-- No two options of the example share a key. -/
theorem distinctKeys_repliesConfig : repliesConfig.DistinctKeys asciiUpper where
  leaves l hl l' hl' _ := by rw [eq_expiredReplies hl, eq_expiredReplies hl']
  file l hl := by rw [eq_expiredReplies hl]; decide
  pre l hl := by rw [eq_expiredReplies hl]; decide

/-- The names of the example can be attributes. -/
theorem identifiers_repliesConfig : repliesConfig.fields.erase.Identifiers :=
  ⟨CommandLineExample.isName (by decide), trivial⟩

/-- The option of the field reaches it. -/
theorem hasOptions_repliesConfig :
    HasOptions CommandLineExample.asciiCase (fun _ => (none : Option (PyLeaf (Scalar Empty))))
      repliesConfig where
  registers := ⟨⟨[actionOf CommandLineExample.asciiTable [[], str "allow_expired_replies"]],
    by decide⟩, rfl⟩
  lower l hl name hname := by
    rw [eq_expiredReplies hl] at hname
    rw [List.mem_singleton.1 hname]
    decide
  first l hl name hname := by
    rw [eq_expiredReplies hl] at hname
    cases hname
    decide
  attributes l hl := rfl

/-- The field is given a value. -/
def repliesAllowed (b : Bool) : Assignment repliesConfig where
  value path := if path = expiredReplies.path then some (.bool b) else none
  typed l hl v hv := by
    rw [eq_expiredReplies hl, if_pos rfl] at hv
    cases hv
    rw [eq_expiredReplies hl]
    rfl
  only path v hv := by
    split_ifs at hv with hpath
    exact ⟨expiredReplies, List.mem_singleton.2 rfl, hpath.symm⟩

/-- Nothing is made of values of other types. -/
def noCalls : TypeCalls Empty Empty where
  other _ a := a.elim
  strDict _ := []
  notDict _ := .error .typeError

end SourcesExample

open SourcesExample

/-- That replies may be expired is the same from every source. -/
theorem allowed_sameFromEverySource :
    SameFromEverySource noCalls asciiUpper.upperStr CommandLineExample.asciiTable (fun _ => none)
      (repliesAllowed true) := by
  refine ((sameFromEverySource_iff noCalls CommandLineExample.asciiCase _ distinctKeys_repliesConfig
    identifiers_repliesConfig _).2 hasOptions_repliesConfig).2 fun _ l hl _ v hv => ?_
  rw [eq_expiredReplies hl] at hv
  cases hv
  rfl

/-- That they may not is false in the file, and true if the environment says `false`. -/
theorem not_allowed_differs :
    ¬SameFromEverySource noCalls asciiUpper.upperStr CommandLineExample.asciiTable (fun _ => none)
      (repliesAllowed false) := by
  intro hsame
  have hsupplies := fun file environ => supplies_of_distinctKeys (κ := Empty) (α := Empty)
    distinctKeys_repliesConfig file environ fun _ => .none
  obtain ⟨heq, -⟩ :=
    hsame _ _ _ ⟨hsupplies (repliesAllowed false).value fun _ => none, fun l hl => rfl⟩
    ⟨hsupplies (fun _ => none) (repliesAllowed false).value, fun l hl => rfl⟩
    (hsupplies (fun _ => none) fun _ => none) _ (.refl _)
  have hfalse : loadConfig noCalls asciiUpper.upperStr repliesConfig
      ⟨environOf asciiUpper repliesConfig fun _ => none,
        fun _ => documentOf Empty repliesConfig (repliesAllowed false).value, fun _ => .none⟩ =
      .ok (.mapping [(str "allow_expired_replies", .leaf (.bool false))]) := rfl
  have htrue : loadConfig noCalls asciiUpper.upperStr repliesConfig
      ⟨environOf asciiUpper repliesConfig (repliesAllowed false).value,
        fun _ => documentOf Empty repliesConfig fun _ => none, fun _ => .none⟩ =
      .ok (.mapping [(str "allow_expired_replies", .leaf (.bool true))]) := rfl
  rw [hfalse, htrue] at heq
  cases heq

end Vumi2
