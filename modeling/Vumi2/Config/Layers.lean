import Vumi2.Config

/-!
# The layers of the configuration

The command line counts before the environment, and that before the file. Merging looks at one key
at a time (`get?_mergeInto_of_mem`), so a layer that `walk_config_class` made is laid over a
configuration field by field, and a nested class like the class itself (`overlaid`). The layer has a
dictionary for every nested class, also where it has no value in it. So the merge raises if the file
has anything but a dictionary there, such as the `null` of a section without entries, or if the
whole file is empty; it has the documented priority in all other cases (`layered_iff`).
-/

namespace Vumi2

open Text Nested

variable {κ α : Type}

/-! ## The layer of a class -/

/-- The value that a source gives for a field. -/
def given : PyLeaf α → Option (Config κ α)
  | .none => none
  | v => some (.leaf v)

namespace ConfigFields

/-- The type of the field of a key. -/
def typeOf (cls : ConfigFields) : Key κ → Option FieldType
  | .name k => cls.field? k
  | .other _ => none

/-- Induction over a class: from the nested classes to the class. -/
theorem nested_induction {p : ConfigFields → Prop}
    (h : ∀ cls : ConfigFields, (∀ k sub, cls.field? k = some (.nested sub) → p sub) → p cls)
    (cls : ConfigFields) : p cls := by
  -- The statement for the class alone is too weak: a section may stand behind other fields.
  have hboth : p cls ∧ ∀ k sub, cls.field? k = some (.nested sub) → p sub := by
    induction cls with
    | nil =>
      have hsubs : ∀ k sub, nil.field? k = some (.nested sub) → p sub := by
        intro k sub hk
        cases hk
      exact ⟨h _ hsubs, hsubs⟩
    | value name rest ih =>
      have hsubs : ∀ k sub, (value name rest).field? k = some (.nested sub) → p sub := by
        intro k sub hk
        unfold field? at hk
        split_ifs at hk
        · cases hk
        · exact ih.2 k sub hk
      exact ⟨h _ hsubs, hsubs⟩
    | nested name fields rest ihfields ihrest =>
      have hsubs : ∀ k sub, (nested name fields rest).field? k = some (.nested sub) → p sub := by
        intro k sub hk
        unfold field? at hk
        split_ifs at hk
        · cases hk
          exact ihfields.1
        · exact ihrest.2 k sub hk
      exact ⟨h _ hsubs, hsubs⟩
  exact hboth.1

/-- The fields of a nested class have names of their own, too. -/
theorem Named.nested {cls : ConfigFields} (h : cls.Named) {k : Str} {sub : ConfigFields}
    (hk : cls.field? k = some (.nested sub)) : sub.Named := by
  induction cls with
  | nil => cases hk
  | value name rest ih =>
    unfold field? at hk
    split_ifs at hk
    · cases hk
    · exact ih h.2 hk
  | nested name fields rest _ ih =>
    unfold field? at hk
    split_ifs at hk
    · cases hk
      exact h.2.1
    · exact ih h.2.2 hk

/-- A field is the first one, or one of the others. -/
theorem field?_value {name k : Str} {rest : ConfigFields} {t : FieldType}
    (h : rest.field? name = none) :
    (value name rest).field? k = some t ↔ k = name ∧ .value = t ∨ rest.field? k = some t := by
  have hfield : (value name rest).field? k = if k = name then some .value else rest.field? k := rfl
  rw [hfield]
  split_ifs with hk
  · rw [hk, h]
    simp
  · simp [hk]

/-- A field is the first section, or one of the others. -/
theorem field?_nested {name k : Str} {fields rest : ConfigFields} {t : FieldType}
    (h : rest.field? name = none) :
    (nested name fields rest).field? k = some t ↔
      k = name ∧ .nested fields = t ∨ rest.field? k = some t := by
  have hfield : (nested name fields rest).field? k =
      if k = name then some (.nested fields) else rest.field? k := rfl
  rw [hfield]
  split_ifs with hk
  · rw [hk, h]
    simp
  · simp [hk]

end ConfigFields

variable {fn : Str → List Str → PyLeaf α} {pre : List Str} {cls : ConfigFields}

/-- What the walk gives is the value of the first field, if it has one, or is given by the others.
-/
theorem mem_walk_value {name : Str} {rest : ConfigFields} {e : Key κ × Config κ α} :
    e ∈ walkConfigClass fn pre (.value name rest) ↔
      (∃ v, given (fn name pre) = some v ∧ e = (.name name, v)) ∨
        e ∈ walkConfigClass fn pre rest := by
  rw [walkConfigClass]
  cases fn name pre with
  | none => simp [given]
  | string s => simp [given]
  | other a => simp [given]

/-- What `walk_config_class` puts into its result: the values that are given, and a dictionary for
every nested class. -/
theorem mem_walkConfigClass (h : cls.Named) {e : Key κ × Config κ α} :
    e ∈ walkConfigClass fn pre cls ↔
      (∃ name v, cls.field? name = some .value ∧ given (fn name pre) = some v ∧
          e = (.name name, v)) ∨
        ∃ name sub, cls.field? name = some (.nested sub) ∧
          e = (.name name, .mapping (walkConfigClass fn (pre ++ [name]) sub)) := by
  induction cls with
  | nil => simp [walkConfigClass, ConfigFields.field?]
  | value name rest ih =>
    -- The first field is not a field of the rest, so each side splits into it and the rest.
    rw [mem_walk_value, ih h.2]
    simp only [ConfigFields.field?_value h.1]
    constructor
    · rintro (⟨v, hv, he⟩ | ⟨k, v, hk, hv, he⟩ | ⟨k, sub, hk, he⟩)
      · exact .inl ⟨name, v, .inl ⟨rfl, trivial⟩, hv, he⟩
      · exact .inl ⟨k, v, .inr hk, hv, he⟩
      · exact .inr ⟨k, sub, .inr hk, he⟩
    · rintro (⟨k, v, ⟨rfl, -⟩ | hk, hv, he⟩ | ⟨k, sub, ⟨-, hsub⟩ | hk, he⟩)
      · exact .inl ⟨v, hv, he⟩
      · exact .inr (.inl ⟨k, v, hk, hv, he⟩)
      · cases hsub
      · exact .inr (.inr ⟨k, sub, hk, he⟩)
  | nested name fields rest _ ih =>
    rw [walkConfigClass, List.mem_cons, ih h.2.2]
    simp only [ConfigFields.field?_nested h.1]
    constructor
    · rintro (he | ⟨k, v, hk, hv, he⟩ | ⟨k, sub, hk, he⟩)
      · exact .inr ⟨name, fields, .inl ⟨rfl, rfl⟩, he⟩
      · exact .inl ⟨k, v, .inr hk, hv, he⟩
      · exact .inr ⟨k, sub, .inr hk, he⟩
    · rintro (⟨k, v, ⟨-, hvalue⟩ | hk, hv, he⟩ | ⟨k, sub, ⟨rfl, hsub⟩ | hk, he⟩)
      · cases hvalue
      · exact .inr (.inl ⟨k, v, hk, hv, he⟩)
      · cases hsub
        exact .inl he
      · exact .inr (.inr ⟨k, sub, hk, he⟩)

/-- Every key of the layer is the name of a field. -/
theorem exists_field_of_mem (h : cls.Named) {k : Key κ}
    (hk : k ∈ (walkConfigClass (α := α) fn pre cls).map Prod.fst) :
    ∃ name, k = .name name ∧ cls.field? name ≠ none := by
  obtain ⟨e, he, rfl⟩ := List.mem_map.1 hk
  rcases (mem_walkConfigClass h).1 he with ⟨name, v, hname, -, rfl⟩ | ⟨name, sub, hname, rfl⟩
  · exact ⟨name, rfl, by rw [hname]; nofun⟩
  · exact ⟨name, rfl, by rw [hname]; nofun⟩

/-- The walk gives no key twice. -/
theorem keys_walkConfigClass (h : cls.Named) :
    ((walkConfigClass fn pre cls : List (Key κ × Config κ α)).map Prod.fst).Nodup := by
  have hnew : ∀ {rest : ConfigFields} {name : Str}, rest.Named → rest.field? name = none →
      Key.name name ∉ (walkConfigClass fn pre rest : List (Key κ × Config κ α)).map Prod.fst := by
    intro rest name hrest hnone hmem
    obtain ⟨name', heq, hname⟩ := exists_field_of_mem hrest hmem
    cases heq
    exact hname hnone
  induction cls with
  | nil => exact List.nodup_nil
  | value name rest ih =>
    rw [walkConfigClass]
    cases fn name pre with
    | none => exact ih h.2
    | string s => exact List.nodup_cons.2 ⟨hnew h.2 h.1, ih h.2⟩
    | other a => exact List.nodup_cons.2 ⟨hnew h.2 h.1, ih h.2⟩
  | nested name fields rest _ ih =>
    rw [walkConfigClass]
    exact List.nodup_cons.2 ⟨hnew h.2.2 h.1, ih h.2.2⟩

/-- The path of a value of a class. -/
def IsLeaf : ConfigFields → List Str → Prop
  | _, [] => False
  | cls, name :: path =>
    match cls.field? name with
    | none => False
    | some .value => path = []
    | some (.nested sub) => IsLeaf sub path

/-- A path that leads out of a class. -/
def Foreign : ConfigFields → List (Key κ) → Prop
  | _, [] => False
  | cls, k :: path =>
    match cls.typeOf k with
    | none => True
    | some .value => False
    | some (.nested sub) => Foreign sub path

/-- The path of a leaf is not empty. -/
theorem IsLeaf.ne_nil {path : List Str} (h : IsLeaf cls path) : path ≠ [] := by
  rintro rfl
  exact h

/-- A path that leads out of the class is not empty. -/
theorem Foreign.ne_nil {path : List (Key κ)} (h : Foreign cls path) : path ≠ [] := by
  rintro rfl
  exact h

variable [DecidableEq κ]

/-! ## Merging, key by key -/

/-- A value is set as it is where there was none. -/
theorem mergeInto_of_keyed {items : List (Key κ × Config κ α)}
    (hvalues : ∀ e ∈ items, overlay none e.2 = .ok e.2) {d : Dict (Key κ) (Config κ α)}
    (hkeys : ((d.items ++ items).map Prod.fst).Nodup) :
    mergeInto d items = .ok ⟨d.items ++ items, hkeys⟩ := by
  induction items generalizing d with
  | nil =>
    rw [mergeInto]
    congr 1
    apply Dict.ext
    simp
  | cons e items ih =>
    -- The key is not among those that are there.
    have hnew : d.get? e.1 = none := by
      rw [Dict.get?_eq_none]
      intro hmem
      rw [List.map_append, List.map_cons] at hkeys
      exact (List.nodup_append.1 hkeys).2.2 _ hmem _ List.mem_cons_self rfl
    have hitems := Dict.items_set_of_not_mem e.2 hnew
    have hkeys' : (((d.set e.1 e.2).items ++ items).map Prod.fst).Nodup := by
      rw [hitems, List.append_assoc]
      exact hkeys
    have hrest := ih (fun e' he' => hvalues e' (List.mem_cons_of_mem _ he')) hkeys'
    rw [mergeInto, hnew, hvalues e List.mem_cons_self, ok_bind, hrest]
    congr 1
    apply Dict.ext
    show (d.set e.1 e.2).items ++ items = d.items ++ e :: items
    rw [hitems, List.append_assoc]
    rfl

/-- A copy is equal. -/
theorem overlay_none {v : Config κ α} (h : v.Keyed) : overlay none v = .ok v := by
  induction h with
  | leaf a => rw [overlay]
  | mapping keys values ih =>
    have hcopy := mergeInto_of_keyed (d := .empty) ih (by simpa using keys)
    rw [overlay, Option.getD_none, asDict, ok_bind]
    show (mergeInto Dict.empty _ >>= _) = _
    rw [hcopy]
    rfl

/-- So is that of a whole dictionary. -/
theorem mergeInto_empty {items : List (Key κ × Config κ α)} (h : (mapping items).Keyed) :
    mergeInto .empty items = .ok (.ofItems items) := by
  cases h with
  | mapping keys values =>
    have hcopy := mergeInto_of_keyed (d := .empty) (fun e he => overlay_none (values e he))
      (by simpa using keys)
    rw [hcopy, Dict.ofItems_of_nodup keys]
    rfl

/-- Merging leaves a key alone that the next dictionary does not have. -/
theorem get?_mergeInto_of_not_mem {items : List (Key κ × Config κ α)}
    {d r : Dict (Key κ) (Config κ α)} (h : mergeInto d items = .ok r) {k : Key κ}
    (hk : k ∉ items.map Prod.fst) : r.get? k = d.get? k := by
  induction items generalizing d with
  | nil =>
    rw [mergeInto] at h
    rw [Except.ok.inj h]
  | cons e items ih =>
    rw [List.map_cons, List.mem_cons, not_or] at hk
    rw [mergeInto] at h
    obtain ⟨x, -, h⟩ := bind_eq_ok.1 h
    rw [ih h hk.2, Dict.get?_set_of_ne _ _ hk.1]

/-- What it sets another key to depends on that key alone. -/
theorem get?_mergeInto_of_mem {items : List (Key κ × Config κ α)}
    {d r : Dict (Key κ) (Config κ α)} (h : mergeInto d items = .ok r)
    (hkeys : (items.map Prod.fst).Nodup) {k : Key κ} {v : Config κ α} (hk : (k, v) ∈ items) :
    ∃ x, overlay (d.get? k) v = .ok x ∧ r.get? k = some x := by
  induction items generalizing d with
  | nil => exact absurd hk List.not_mem_nil
  | cons e items ih =>
    obtain ⟨hnew, hkeys⟩ := List.nodup_cons.1 hkeys
    rw [mergeInto] at h
    obtain ⟨x, hx, h⟩ := bind_eq_ok.1 h
    rcases List.mem_cons.1 hk with rfl | hk
    · -- The keys differ, so nothing after the first item touches it.
      exact ⟨x, hx, by rw [get?_mergeInto_of_not_mem h hnew, Dict.get?_set_self]⟩
    · -- Nor does the first item touch the key of a later one.
      have hne : k ≠ e.1 := by
        rintro rfl
        exact hnew (List.mem_map.2 ⟨_, hk, rfl⟩)
      obtain ⟨y, hy, hr⟩ := ih h hkeys hk
      rw [Dict.get?_set_of_ne _ _ hne] at hy
      exact ⟨y, hy, hr⟩

/-- Merging succeeds if every key can be set. -/
theorem mergeInto_succeeds {items : List (Key κ × Config κ α)} {d : Dict (Key κ) (Config κ α)}
    (hkeys : (items.map Prod.fst).Nodup)
    (h : ∀ e ∈ items, ∃ x, overlay (d.get? e.1) e.2 = .ok x) : ∃ r, mergeInto d items = .ok r := by
  induction items generalizing d with
  | nil => exact ⟨d, by rw [mergeInto]⟩
  | cons e items ih =>
    obtain ⟨hnew, hkeys⟩ := List.nodup_cons.1 hkeys
    obtain ⟨x, hx⟩ := h e List.mem_cons_self
    rw [mergeInto, hx, ok_bind]
    refine ih hkeys fun e' he' => ?_
    have hne : e'.1 ≠ e.1 := by
      intro heq
      exact hnew (heq ▸ List.mem_map.2 ⟨e', he', rfl⟩)
    rw [Dict.get?_set_of_ne _ _ hne]
    exact h e' (List.mem_cons_of_mem _ he')

/-! ## A layer over a configuration -/

/-- A configuration in which every section of a class, if it is there, is a dictionary. -/
def Readable : ConfigFields → Dict (Key κ) (Config κ α) → Prop
  | .nil, _ => True
  | .value _ rest, d => Readable rest d
  | .nested name fields rest, d =>
    (match d.get? (.name name) with
      | none => True
      | some (.leaf _) => False
      | some (.mapping items) => Readable fields (.ofItems items)) ∧ Readable rest d

/-- The empty dictionary can be read for any class. -/
theorem readable_empty (cls : ConfigFields) :
    Readable cls (.empty : Dict (Key κ) (Config κ α)) := by
  induction cls with
  | nil => trivial
  | value name rest ih => exact ih
  | nested name fields rest _ ih => exact ⟨trivial, ih⟩

/-- The dictionary that a layer's dictionary for a section is merged into. -/
def section? (d : Dict (Key κ) (Config κ α)) (name : Str) :
    Except PyExc (Dict (Key κ) (Config κ α)) := asDict ((d.get? (.name name)).getD (.mapping []))

/-- A dictionary can be read if each section of the class can be. -/
theorem readable_iff (h : cls.Named) {d : Dict (Key κ) (Config κ α)} :
    Readable cls d ↔ ∀ name sub, cls.field? name = some (.nested sub) →
      ∃ s, section? d name = .ok s ∧ Readable sub s := by
  induction cls with
  | nil =>
    refine iff_of_true trivial fun name sub hname => ?_
    cases hname
  | value name rest ih =>
    rw [Readable, ih h.2]
    simp only [ConfigFields.field?_value h.1]
    constructor
    · rintro hall k sub (⟨-, hk⟩ | hk)
      · cases hk
      · exact hall k sub hk
    · exact fun hall k sub hk => hall k sub (.inr hk)
  | nested name fields rest _ ih =>
    -- A missing section counts as an empty one, which is readable.
    have hsection : (match d.get? (.name name) with
        | none => True
        | some (.leaf _) => False
        | some (.mapping items) => Readable fields (.ofItems items)) ↔
          ∃ s, section? d name = .ok s ∧ Readable fields s := by
      unfold section?
      cases d.get? (.name name) with
      | none => exact iff_of_true trivial ⟨_, rfl, readable_empty fields⟩
      | some v =>
        cases v with
        | leaf a =>
          refine iff_of_false not_false ?_
          rintro ⟨s, hs, -⟩
          cases hs
        | mapping items =>
          constructor
          · exact fun hread => ⟨_, rfl, hread⟩
          · rintro ⟨s, hs, hread⟩
            cases hs
            exact hread
    rw [Readable, hsection, ih h.2.2]
    simp only [ConfigFields.field?_nested h.1]
    constructor
    · rintro ⟨hfirst, hall⟩ k sub (⟨rfl, hk⟩ | hk)
      · cases hk
        exact hfirst
      · exact hall k sub hk
    · intro hall
      exact ⟨hall name fields (.inl ⟨rfl, rfl⟩), fun k sub hk => hall k sub (.inr hk)⟩

/-- A given value is set whatever there was before. -/
theorem overlay_given {current : Option (Config κ α)} {a : PyLeaf α} {v : Config κ α}
    (h : given a = some v) : overlay current v = .ok v := by
  cases a with
  | none => cases h
  | string s =>
    cases h
    rw [overlay]
  | other a =>
    cases h
    rw [overlay]

/-- A section of the layer is laid over the section. -/
theorem overlay_section {d : Dict (Key κ) (Config κ α)} {name : Str}
    {items : List (Key κ × Config κ α)} {x : Config κ α} :
    overlay (d.get? (.name name)) (.mapping items) = .ok x ↔
      ∃ s t, section? d name = .ok s ∧ mergeInto s items = .ok t ∧ x = .mapping t.items := by
  rw [overlay]
  unfold section?
  -- What is there is no dictionary, or its merge raises, or the section is replaced.
  cases asDict ((d.get? (.name name)).getD (.mapping [])) with
  | error e =>
    refine iff_of_false (by nofun) ?_
    rintro ⟨s, t, hs, -⟩
    cases hs
  | ok s =>
    rw [ok_bind]
    cases hmerge : mergeInto s items with
    | error e =>
      refine iff_of_false (by nofun) ?_
      rintro ⟨s', t, hs, ht, -⟩
      cases hs
      rw [hmerge] at ht
      cases ht
    | ok t =>
      rw [ok_bind]
      constructor
      · intro hx
        exact ⟨s, t, rfl, hmerge, (Except.ok.inj hx).symm⟩
      · rintro ⟨s', t', hs, ht, rfl⟩
        cases hs
        rw [hmerge] at ht
        cases ht
        rfl

/-- What a layer makes of a configuration, field by field. -/
structure Overlaid (fn : Str → List Str → PyLeaf α) (pre : List Str) (cls : ConfigFields)
    (d r : Dict (Key κ) (Config κ α)) : Prop where
  /-- A value that is given counts. -/
  value : ∀ name, cls.field? name = some .value →
    r.get? (.name name) = (given (fn name pre)).or (d.get? (.name name))
  /-- A section is overlaid by its own part of the layer. -/
  nested : ∀ name sub, cls.field? name = some (.nested sub) →
    ∃ s t, section? d name = .ok s ∧ mergeInto s (walkConfigClass fn (pre ++ [name]) sub) = .ok t ∧
      r.get? (.name name) = some (.mapping t.items)
  /-- What is not of the class stays. -/
  other : ∀ k, cls.typeOf k = none → r.get? k = d.get? k

/-- A layer is laid over a configuration field by field. -/
theorem overlaid (h : cls.Named) {d r : Dict (Key κ) (Config κ α)}
    (hmerge : mergeInto d (walkConfigClass fn pre cls) = .ok r) : Overlaid fn pre cls d r := by
  have hkeys : ((walkConfigClass fn pre cls : List (Key κ × Config κ α)).map Prod.fst).Nodup :=
    keys_walkConfigClass h
  refine ⟨fun name hname => ?_, fun name sub hname => ?_, fun k hk => ?_⟩
  · cases hgiven : (given (fn name pre) : Option (Config κ α)) with
    | none =>
      -- No value is given: the layer does not have the key.
      refine get?_mergeInto_of_not_mem hmerge fun hmem => ?_
      obtain ⟨e, he, heq⟩ := List.mem_map.1 hmem
      rcases (mem_walkConfigClass h).1 he with ⟨name', v, -, hv, rfl⟩ | ⟨name', sub, hsub, rfl⟩
      · cases heq
        rw [hgiven] at hv
        cases hv
      · cases heq
        rw [hname] at hsub
        cases hsub
    | some v =>
      -- It is given: the layer has the key, and sets it.
      have hmem := (mem_walkConfigClass h).2 (.inl ⟨name, v, hname, hgiven, rfl⟩)
      obtain ⟨x, hx, hr⟩ := get?_mergeInto_of_mem hmerge hkeys hmem
      rw [overlay_given hgiven] at hx
      rw [hr, Except.ok.inj hx]
      rfl
  · -- The layer always has a dictionary for a nested class.
    have hmem : (Key.name name, .mapping (walkConfigClass fn (pre ++ [name]) sub)) ∈
        (walkConfigClass fn pre cls : List (Key κ × Config κ α)) :=
      (mem_walkConfigClass h).2 (.inr ⟨name, sub, hname, rfl⟩)
    obtain ⟨x, hx, hr⟩ := get?_mergeInto_of_mem hmerge hkeys hmem
    obtain ⟨s, t, hs, ht, rfl⟩ := overlay_section.1 hx
    exact ⟨s, t, hs, ht, hr⟩
  · -- The layer has the names of fields only.
    refine get?_mergeInto_of_not_mem hmerge fun hmem => ?_
    obtain ⟨name, rfl, hname⟩ := exists_field_of_mem h hmem
    exact hname hk

/-- A layer can be laid over the readable configurations, and over no others. -/
theorem mergeInto_walk_iff (h : cls.Named) {d : Dict (Key κ) (Config κ α)} :
    (∃ r, mergeInto d (walkConfigClass fn pre cls) = .ok r) ↔ Readable cls d := by
  induction cls using ConfigFields.nested_induction generalizing d pre with
  | h cls ih =>
    rw [readable_iff h]
    constructor
    · -- Every section was merged into, so it is a dictionary.
      rintro ⟨r, hr⟩ name sub hname
      obtain ⟨s, t, hs, ht, -⟩ := (overlaid h hr).nested name sub hname
      exact ⟨s, hs, (ih name sub hname (h.nested hname)).1 ⟨t, ht⟩⟩
    · -- Each key can be set: a value always, and a section if it is a dictionary.
      intro hall
      refine mergeInto_succeeds (keys_walkConfigClass h) fun e he => ?_
      rcases (mem_walkConfigClass h).1 he with ⟨name, v, hname, hv, rfl⟩ | ⟨name, sub, hname, rfl⟩
      · exact ⟨v, overlay_given hv⟩
      · obtain ⟨s, hs, hread⟩ := hall name sub hname
        obtain ⟨t, ht⟩ := (ih name sub hname (h.nested hname)).2 hread
        exact ⟨_, overlay_section.2 ⟨s, t, hs, ht, rfl⟩⟩

/-- What a layer leaves is readable, since it has a dictionary for every section. -/
theorem readable_of_mergeInto (h : cls.Named) {d r : Dict (Key κ) (Config κ α)}
    (hmerge : mergeInto d (walkConfigClass fn pre cls) = .ok r) : Readable cls r := by
  induction cls using ConfigFields.nested_induction generalizing d r pre with
  | h cls ih =>
    rw [readable_iff h]
    intro name sub hname
    obtain ⟨s, t, -, ht, hr⟩ := (overlaid h hmerge).nested name sub hname
    refine ⟨t, ?_, ih name sub hname (h.nested hname) ht⟩
    unfold section?
    rw [hr, Option.getD_some, asDict, Dict.ofItems_items]

/-! ## Paths -/

/-- What is in a section, before and after it is made into a dictionary of its own. -/
theorem at?_section {d s : Dict (Key κ) (Config κ α)} {name : Str} (hs : section? d name = .ok s)
    {path : List (Key κ)} (hpath : path ≠ []) :
    at? path (.mapping s.items) = at? (.name name :: path) (.mapping d.items) := by
  rw [at?_cons_mapping]
  unfold section? at hs
  cases hget : d.get? (.name name) with
  | none =>
    -- A missing section counts as an empty one, in which there is nothing.
    rw [hget] at hs
    cases hs
    rw [at?_ofItems hpath]
    cases path with
    | nil => exact absurd rfl hpath
    | cons k path => rfl
  | some v =>
    rw [hget] at hs
    cases v with
    | leaf a => cases hs
    | mapping items =>
      cases hs
      rw [at?_ofItems hpath]
      rfl

/-- At the path of a value, a layer counts if it gives a value there. -/
theorem at?_of_isLeaf (source : List Str → PyLeaf α) {path : List Str} (h : cls.Named)
    {d r : Dict (Key κ) (Config κ α)}
    (hmerge :
      mergeInto d (walkConfigClass (fun name pre => source (pre ++ [name])) pre cls) = .ok r)
    (hpath : IsLeaf cls path) :
    at? (path.map .name) (.mapping r.items) =
      (given (source (pre ++ path))).or (at? (path.map .name) (.mapping d.items)) := by
  induction path generalizing cls pre d r with
  | nil => exact absurd hpath not_false
  | cons name path ih =>
    have hoverlaid := overlaid h hmerge
    unfold IsLeaf at hpath
    cases hname : cls.field? name with
    | none =>
      rw [hname] at hpath
      exact absurd hpath not_false
    | some t =>
      rw [hname] at hpath
      cases t with
      | value =>
        dsimp only at hpath
        rw [hpath, List.map_cons, List.map_nil, at?_cons_mapping, at?_cons_mapping,
          hoverlaid.value name hname]
        -- The path ends here.
        rw [bind_at?_nil, bind_at?_nil]
      | nested sub =>
        dsimp only at hpath
        -- It goes on in a section, which is overlaid by its part of the layer.
        obtain ⟨s, t, hs, ht, hr⟩ := hoverlaid.nested name sub hname
        have hrest := ih (h.nested hname) ht hpath
        have hne : path.map (Key.name (κ := κ)) ≠ [] := fun hnil =>
          hpath.ne_nil (List.map_eq_nil_iff.1 hnil)
        rw [List.append_assoc] at hrest
        rw [List.map_cons, ← at?_section hs hne, at?_cons_mapping, hr, Option.bind_some, hrest]
        rfl

/-- A layer leaves alone what is not of the class. -/
theorem at?_of_foreign {path : List (Key κ)} (h : cls.Named) {d r : Dict (Key κ) (Config κ α)}
    (hmerge : mergeInto d (walkConfigClass fn pre cls) = .ok r) (hpath : Foreign cls path) :
    at? path (.mapping r.items) = at? path (.mapping d.items) := by
  induction path generalizing cls pre d r with
  | nil => exact absurd hpath not_false
  | cons k path ih =>
    have hoverlaid := overlaid h hmerge
    unfold Foreign at hpath
    cases hk : cls.typeOf k with
    | none => rw [at?_cons_mapping, at?_cons_mapping, hoverlaid.other k hk]
    | some t =>
      rw [hk] at hpath
      cases t with
      | value => exact absurd hpath not_false
      | nested sub =>
        dsimp only at hpath
        cases k with
        | other k => cases hk
        | name name =>
          -- It leads into a section, which is merged with its own part of the layer.
          obtain ⟨s, t, hs, ht, hr⟩ := hoverlaid.nested name sub hk
          rw [← at?_section hs hpath.ne_nil, at?_cons_mapping, hr, Option.bind_some]
          exact ih (h.nested hk) ht hpath

/-! ## The configuration of a worker -/

/-- A file that is a dictionary, in which every section of a class, if it is there, is one too. -/
def ReadableFile (cls : ConfigFields) : Config κ α → Prop
  | .leaf _ => False
  | .mapping items => Readable cls (.ofItems items)

/-- The merge does not raise. Each value of the class is that of the command line if it is given
there, else that of the environment, else that of the file, and nothing else changes. -/
def Layered (upper : Str → Str) (environ : Str → Option Str) (safeLoad : Str → Loaded κ α)
    (cls : ConfigClass) (cli : Str → PyLeaf α) : Prop :=
  ∃ merged, configDict upper environ safeLoad cls cli = .ok merged ∧
    (∀ path, IsLeaf cls.fields path →
      at? (path.map .name) (.mapping merged.items) =
        ((given (cli (createCliKey path))).or
          (given (getEnv environ (createEnvVarKey upper (configPrefix environ :: path))))).or
            (at? (path.map .name) (loadConfigFromFile safeLoad (configPath environ)).config)) ∧
      ∀ path, Foreign cls.fields path →
        at? path (.mapping merged.items) =
          at? path (loadConfigFromFile safeLoad (configPath environ)).config

/-- The layers have the documented priority exactly if the file is a dictionary, without a section
that is none. -/
theorem layered_iff (upper : Str → Str) (environ : Str → Option Str) (safeLoad : Str → Loaded κ α)
    (cls : ConfigClass) (cli : Str → PyLeaf α) :
    Layered upper environ safeLoad cls cli ↔
      ReadableFile cls.fields (loadConfigFromFile safeLoad (configPath environ)).config := by
  have hkeyed := (loadConfigFromFile safeLoad (configPath environ)).keyed
  unfold Layered configDict combineNestedDictionaries loadConfigFromEnvironment loadConfigFromCli
  generalize (loadConfigFromFile safeLoad (configPath environ)).config = file at hkeyed ⊢
  cases file with
  | leaf a =>
    -- `None` has no items: the merge raises at once.
    refine iff_of_false ?_ not_false
    rintro ⟨merged, hmerged, -⟩
    cases hmerged
  | mapping items =>
    have henv_iff : (∃ d, mergeInto (.ofItems items) (walkConfigClass
        (fun name pre => getEnv environ (createEnvVarKey upper (pre ++ [name])))
        [configPrefix environ] cls.fields) = .ok d) ↔ Readable cls.fields (.ofItems items) :=
      mergeInto_walk_iff cls.named
    have hcli_iff : ∀ d : Dict (Key κ) (Config κ α), (∃ r, mergeInto d (walkConfigClass
        (fun name pre => cli (createCliKey (pre ++ [name]))) [[]] cls.fields) = .ok r) ↔
          Readable cls.fields d := fun d => mergeInto_walk_iff cls.named
    rw [combineFrom, mergeInto_empty hkeyed, ok_bind, combineFrom]
    constructor
    · -- The environment layer is merged first, and that needs a readable file.
      rintro ⟨merged, hmerged, -⟩
      obtain ⟨d, henv, -⟩ := bind_eq_ok.1 hmerged
      exact henv_iff.1 ⟨d, henv⟩
    · -- The environment layer leaves it readable for the command line.
      intro hread
      obtain ⟨d, henv⟩ := henv_iff.2 hread
      obtain ⟨r, hcli⟩ := (hcli_iff d).2 (readable_of_mergeInto cls.named henv)
      refine ⟨r, by rw [henv, ok_bind, combineFrom, hcli, ok_bind, combineFrom], ?_, ?_⟩
      · intro path hpath
        -- The command line comes after the environment, which comes after the file.
        have hne : path.map (Key.name (κ := κ)) ≠ [] := fun hnil =>
          hpath.ne_nil (List.map_eq_nil_iff.1 hnil)
        rw [at?_of_isLeaf (fun parts => cli (createCliKey parts)) cls.named hcli hpath,
          at?_of_isLeaf (fun parts => getEnv environ (createEnvVarKey upper parts)) cls.named henv
            hpath, at?_ofItems hne, Option.or_assoc]
        rfl
      · intro path hpath
        rw [at?_of_foreign cls.named hcli hpath, at?_of_foreign cls.named henv hpath,
          at?_ofItems hpath.ne_nil]

/-! ## On given inputs -/

namespace ConfigExample

/-- `str.upper` of an ASCII text. -/
def upper (s : Str) : Str :=
  s.map fun c => if 97 ≤ c.val ∧ c.val ≤ 122 then ofByte (UInt8.ofNat (c.val - 32)) else c

/-- The environment names a file, and sets these variables. -/
def environ (vars : List (Str × Str)) (key : Str) : Option Str :=
  (Dict.ofItems ((str "VUMI_CONFIG_FILE", str "test-config.yaml") :: vars)).get? key

/-- An empty file. -/
def emptyFile : Loaded Empty Empty := ⟨.leaf .none, .leaf _⟩

/-- The dictionary with an empty section has no key twice. -/
theorem keyed_nullSection :
    (Nested.mapping [(.name (str "amqp"), .leaf .none)] : Config Empty Empty).Keyed := by
  refine .mapping (List.nodup_singleton _) fun e he => ?_
  rw [List.mem_singleton.1 he]
  exact .leaf _

/-- A file of `amqp:` with nothing under it. -/
def nullSection : Loaded Empty Empty := ⟨_, keyed_nullSection⟩

end ConfigExample

open ConfigExample

/-- An empty file, and one with an empty section. -/
theorem not_layered :
    ¬ Layered upper (environ []) (fun _ => emptyFile) baseConfig (fun _ => .none) ∧
      ¬ Layered upper (environ []) (fun _ => nullSection) baseConfig (fun _ => .none) := by
  constructor
  · have hraises : configDict upper (environ []) (fun _ => emptyFile) baseConfig (fun _ => .none) =
        .error .attributeError := rfl
    rintro ⟨merged, hmerged, -⟩
    rw [hraises] at hmerged
    cases hmerged
  · have hraises : configDict upper (environ []) (fun _ => nullSection) baseConfig
        (fun _ => .none) = .error .attributeError := rfl
    rintro ⟨merged, hmerged, -⟩
    rw [hraises] at hmerged
    cases hmerged

/-- Each source gives one value: the command line a concurrency that the others give too, the
environment a host that the file gives too, and the file a port. -/
example :
    let file : Config Empty Empty := .mapping
      [(.name (str "amqp"), .mapping [(.name (str "hostname"), .leaf (.string (str "overwritten"))),
          (.name (str "port"), .leaf (.string (str "1234")))]),
        (.name (str "worker_concurrency"), .leaf (.string (str "10")))]
    let env : Config Empty Empty := loadConfigFromEnvironment upper baseConfig []
      (environ [(str "WORKER_CONCURRENCY", str "15"), (str "AMQP_HOSTNAME", str "localhost")])
    let cli : Config Empty Empty := loadConfigFromCli
      (fun key => if key = str "worker_concurrency" then .string (str "5") else .none) baseConfig []
    (combineNestedDictionaries [file, env, cli]).map Dict.items = .ok
      [(.name (str "amqp"), .mapping [(.name (str "hostname"), .leaf (.string (str "localhost"))),
          (.name (str "port"), .leaf (.string (str "1234")))]),
        (.name (str "worker_concurrency"), .leaf (.string (str "5")))] := rfl

end Vumi2
