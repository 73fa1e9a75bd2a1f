import DomainEvents.Proofs.Kind.Coding
import DomainEvents.Proofs.Naming

/-!
# What declarations are expanded

A declaration is expanded if it meets a list of requirements (`Declaration.requirements`), which are
gone through in order. Each of them can be told without the others, from what is written down: which
texts the attributes give (`lastText?`), and which name a variant has by them
(`VariantDeclaration.nameIn`). The expansion is what comes of the first requirement that is not met,
or else the list of the variants with their names (`Declaration.expand_eq`). Hence the declarations
that are expanded are the well-formed ones, and of several defects it is the first that is told.
-/

namespace DomainEvents.Kind

/-! ## Checks -/

/-- What comes of a check: the defect that is found, or else `a`. -/
def checked {α : Type} (defect? : Option Defect) (a : α) : Except Defect α :=
  match defect? with
  | some defect => .error defect
  | none => .ok a

@[simp] theorem checked_none {α : Type} (a : α) : checked none a = .ok a := rfl

@[simp] theorem checked_some {α : Type} (defect : Defect) (a : α) :
    checked (some defect) a = .error defect := rfl

/-- Checks that follow one another come to the first defect of them. -/
theorem checked_bind {α β : Type} {first second : Option Defect} {a : α} {b : β}
    {next : α → Except Defect β} (goes : first = none → next a = checked second b) :
    (checked first a >>= next) = checked (first.or second) b := by
  cases first with
  | none => exact goes rfl
  | some defect => rfl

theorem findSome?_cons_or {α β : Type} (f : α → Option β) (a : α) (l : List α) :
    (a :: l).findSome? f = (f a).or (l.findSome? f) := by
  rw [List.findSome?_cons]
  cases f a <;> rfl

theorem checked_eq_ok_iff {α : Type} {defect? : Option Defect} {a b : α} :
    checked defect? a = .ok b ↔ defect? = none ∧ a = b := by
  cases defect? <;> simp

theorem checked_eq_error_iff {α : Type} {defect? : Option Defect} {a : α} {defect : Defect} :
    checked defect? a = .error defect ↔ defect? = some defect := by
  cases defect? <;> simp

/-! ## Attributes

Whether attributes are right and what they give are told apart here, while they are read together.
It makes no difference, since what is given counts only if all is right. -/

/-- What is wrong with a setting where texts are given for a key. -/
def Setting.defect? (key : String) (s : Setting) : Option Defect :=
  if s.key = key then
    match s.value with
    | some (.text _) => none
    | some .other => some .valueNotText
    | some .missing => some .valueCutOff
    | none => some .missingValue
  else if s.key = "name" ∨ s.key = "namespace" then some .misplacedKey
  else some .unknownKey

/-- The text that a setting gives for a key. -/
def Setting.text? (key : String) (s : Setting) : Option String :=
  if s.key = key then
    match s.value with
    | some (.text value) => some value
    | _ => none
  else none

/-- What is wrong with an attribute where texts are given for a key, which is nothing if it is no
attribute `event`. Of the settings of an attribute it is the first that is not right. -/
def Attribute.defect? (key : String) (a : Attribute) : Option Defect :=
  if a.path = "event" then
    match a.arguments with
    | .list settings => settings.findSome? (·.defect? key)
    | .broken settings complaint =>
      (settings.findSome? (·.defect? key)).or (some (.malformed complaint))
    | .bare => some .bareAttribute
    | .assigned => some .assignedAttribute
  else none

/-- The texts that an attribute gives for a key. -/
def Attribute.texts (key : String) (a : Attribute) : List String :=
  if a.path = "event" then
    match a.arguments with
    | .list settings => settings.filterMap (·.text? key)
    | _ => []
  else []

/-- The last text that is given for a key. -/
def lastText? (key : String) (attributes : List Attribute) : Option String :=
  (attributes.flatMap (·.texts key)).getLast?

/-- An attribute is none of those called `event`, or sets a key to texts and no other key. -/
def Attribute.Sets (key : String) (a : Attribute) : Prop :=
  a.path = "event" →
    ∃ settings, a.arguments = .list settings ∧
      ∀ s ∈ settings, ∃ value, s = ⟨key, some (.text value)⟩

theorem Setting.defect?_eq_none_iff {key : String} {s : Setting} :
    s.defect? key = none ↔ ∃ value, s = ⟨key, some (.text value)⟩ := by
  obtain ⟨own, _ | _ | _ | _⟩ := s <;> by_cases same : own = key <;>
    simp [Setting.defect?, same] <;> split <;> simp

theorem Attribute.defect?_eq_none_iff {key : String} {a : Attribute} :
    a.defect? key = none ↔ a.Sets key := by
  obtain ⟨path, _ | _ | _ | _⟩ := a <;> by_cases event : path = "event" <;>
    simp [Attribute.defect?, Attribute.Sets, event, Setting.defect?_eq_none_iff]

/-- A setting is read if it is right, and then there is a text. -/
theorem Setting.read_eq (key : String) (s : Setting) :
    s.read key = checked (s.defect? key) ((s.text? key).getD "") := by
  rw [Setting.read, Setting.defect?, Setting.text?]
  by_cases own : s.key = key
  · rw [if_pos own, if_pos own, if_pos own]
    rcases s.value with _ | _ | _ | _ <;> rfl
  · rw [if_neg own, if_neg own, if_neg own]
    split <;> rfl

/-- Settings are read up to the first that is not right, and the last text counts. -/
theorem readSettings_eq (key : String) (found : Option String) (settings : List Setting) :
    readSettings key found settings =
      checked (settings.findSome? (·.defect? key))
        ((settings.filterMap (·.text? key)).getLast?.or found) := by
  induction settings generalizing found with
  | nil => rfl
  | cons s rest ih =>
    rw [readSettings, Setting.read_eq, findSome?_cons_or]
    refine checked_bind fun sound => ?_
    obtain ⟨value, rfl⟩ := Setting.defect?_eq_none_iff.mp sound
    have text : Setting.text? key ⟨key, some (.text value)⟩ = some value := if_pos rfl
    rw [text, Option.getD_some, ih, List.filterMap_cons_some text, List.getLast?_cons]
    cases (rest.filterMap (·.text? key)).getLast? <;> rfl

/-- Attributes are read up to the first that is not right, and the last text counts. -/
theorem readAttributes_eq (key : String) (found : Option String) (attributes : List Attribute) :
    readAttributes key found attributes =
      checked (attributes.findSome? (·.defect? key)) ((lastText? key attributes).or found) := by
  induction attributes generalizing found with
  | nil => rfl
  | cons a rest ih =>
    have last : (lastText? key (a :: rest)).or found =
        (lastText? key rest).or ((a.texts key).getLast?.or found) := by
      rw [lastText?, List.flatMap_cons, List.getLast?_append, Option.or_assoc]
      rfl
    rw [readAttributes, List.findSome?_cons, last]
    obtain ⟨path, arguments⟩ := a
    by_cases event : path = "event"
    · cases arguments with
      | list settings =>
        simp only [event, if_true, Attribute.defect?, Attribute.texts, readSettings_eq]
        cases settings.findSome? (·.defect? key) with
        | some defect => rfl
        | none => exact ih _
      | broken settings complaint =>
        simp only [event, if_true, Attribute.defect?, readSettings_eq]
        cases settings.findSome? (·.defect? key) <;> rfl
      | bare => simp [event, Attribute.defect?]
      | assigned => simp [event, Attribute.defect?]
    · simpa [event, Attribute.defect?, Attribute.texts] using ih found

/-! ## Names -/

/-- The namespace of a declaration, if it has one. -/
def Declaration.space? (d : Declaration) : Option String := lastText? "namespace" d.attributes

/-- The name that a variant gives itself, if it does. -/
def VariantDeclaration.ownName? (v : VariantDeclaration) : Option String :=
  lastText? "name" v.attributes

/-- The name that a variant has in a kind with a namespace or without: the one that it gives itself,
or else the spelling of its identifier in the namespace. -/
def VariantDeclaration.nameIn (space? : Option String) (v : VariantDeclaration) : Option String :=
  v.ownName?.or (space?.map fun space => space ++ "." ++ snakeCase v.ident)

/-- What a variant is bound to, if it has a name. -/
def VariantDeclaration.bindingIn (space? : Option String) (v : VariantDeclaration) :
    Option Binding :=
  (v.nameIn space?).map fun name =>
    { ident := v.ident, name, hasPayload := v.contents = .tuple 1 }

theorem VariantDeclaration.map_name_bindingIn (space? : Option String) (v : VariantDeclaration) :
    (v.bindingIn space?).map (·.name) = v.nameIn space? := by
  rw [bindingIn, Option.map_map]
  exact Option.map_id_apply

/-! ## Requirements

The requirements can be listed before any of them is looked at. What is asked of a variant goes with
the variants before it, since their names are all that a name must differ from. -/

/-- What is asked of a variant. -/
inductive Aspect where
  /-- it has no fields, or a single one that has no name -/
  | contents
  /-- its attributes give texts for its name, and nothing else -/
  | attributes
  /-- it has a name -/
  | named
  /-- events can have the name -/
  | valid
  /-- no variant before it has the name -/
  | unused
deriving DecidableEq, Repr

/-- What is asked of a variant, in order. -/
def Aspect.inOrder : List Aspect := [.contents, .attributes, .named, .valid, .unused]

/-- What is asked of a declaration. -/
inductive Requirement where
  /-- it declares an enumeration -/
  | enumeration
  /-- its attributes give texts for its namespace, and nothing else -/
  | attributes
  /-- what is asked of a variant, which comes after those `earlier` -/
  | ofVariant (earlier : List VariantDeclaration) (v : VariantDeclaration) (aspect : Aspect)
  /-- it has variants -/
  | inhabited
deriving DecidableEq, Repr

/-- What is asked of variants that come after those `earlier`, in order. -/
def variantRequirements (earlier : List VariantDeclaration) :
    List VariantDeclaration → List Requirement
  | [] => []
  | v :: rest =>
    Aspect.inOrder.map (.ofVariant earlier v) ++ variantRequirements (earlier ++ [v]) rest

/-- What is asked of a declaration, in order. -/
def Declaration.requirements (d : Declaration) : List Requirement :=
  [.enumeration, .attributes] ++ variantRequirements [] d.variants ++ [.inhabited]

/-- What is wrong with an aspect of a variant. -/
def VariantDeclaration.defect? (space? : Option String) (earlier : List VariantDeclaration)
    (v : VariantDeclaration) : Aspect → Option Defect
  | .contents => if v.contents = .unit ∨ v.contents = .tuple 1 then none else some .contents
  | .attributes => v.attributes.findSome? (·.defect? "name")
  | .named => if v.nameIn space? = none then some .missingName else none
  | .valid =>
    (v.nameIn space?).bind fun name =>
      if Event.isName name then none else some (.invalidName name)
  | .unused =>
    (v.nameIn space?).bind fun name =>
      if name ∈ earlier.filterMap (·.nameIn space?) then some (.duplicateName name) else none

/-- What is wrong with a declaration where something is required of it. -/
def Declaration.defect? (d : Declaration) : Requirement → Option Defect
  | .enumeration => if d.isEnumeration then none else some .notEnumeration
  | .attributes => d.attributes.findSome? (·.defect? "namespace")
  | .ofVariant earlier v aspect => v.defect? d.space? earlier aspect
  | .inhabited => if d.variants = [] then some .noVariants else none

/-! ## What is expanded -/

theorem checkName_checked (name : String) :
    checkName name =
      checked (if Event.isName name then none else some (.invalidName name)) () := by
  rw [checkName_eq]
  split <;> rfl

theorem Contents.hasPayload_eq (c : Contents) :
    c.hasPayload =
      checked (if c = .unit ∨ c = .tuple 1 then none else some .contents)
        (decide (c = .tuple 1)) := by
  rcases c with _ | (_ | _ | n) | _ <;> rfl

/-- The name of a variant is found once its attributes are right and there is one. -/
theorem VariantDeclaration.resolveName_eq (space? : Option String) (v : VariantDeclaration) :
    v.resolveName space? =
      checked ((v.attributes.findSome? (·.defect? "name")).or
        (if v.nameIn space? = none then some .missingName else none))
        ((v.nameIn space?).getD "") := by
  rw [resolveName, readAttributes_eq]
  cases v.attributes.findSome? (·.defect? "name") with
  | some defect => rfl
  | none =>
    rw [nameIn, ownName?]
    cases lastText? "name" v.attributes <;> cases space? <;> rfl

/-- A variant with a name has nothing missing there. -/
theorem VariantDeclaration.exists_name {space? : Option String} {v : VariantDeclaration}
    (earlier : List VariantDeclaration)
    (named : v.defect? space? earlier .named = none) : ∃ name, v.nameIn space? = some name := by
  cases found : v.nameIn space? with
  | none => simp [defect?, found] at named
  | some name => exact ⟨name, rfl⟩

/-- A variant is refused for the first aspect with a defect, or else bound. -/
theorem VariantDeclaration.bind_eq (space? : Option String) (earlier : List VariantDeclaration)
    (v : VariantDeclaration) :
    v.bind space? (earlier.filterMap (·.nameIn space?)) =
      checked (Aspect.inOrder.findSome? (v.defect? space? earlier))
        { ident := v.ident, name := (v.nameIn space?).getD "",
          hasPayload := v.contents = .tuple 1 } := by
  have inTurn : Aspect.inOrder.findSome? (v.defect? space? earlier) =
      (v.defect? space? earlier .contents).or
        (((v.defect? space? earlier .attributes).or (v.defect? space? earlier .named)).or
          ((v.defect? space? earlier .valid).or (v.defect? space? earlier .unused))) := by
    simp only [Aspect.inOrder, findSome?_cons_or, List.findSome?_nil, Option.or_none,
      Option.or_assoc]
  rw [VariantDeclaration.bind, Contents.hasPayload_eq, resolveName_eq, inTurn]
  refine checked_bind fun _ => checked_bind fun right => ?_
  obtain ⟨name, named⟩ := exists_name earlier (Option.or_eq_none_iff.mp right).2
  have valid : v.defect? space? earlier .valid =
      if Event.isName name then none else some (.invalidName name) := by
    rw [defect?, named, Option.bind_some]
  have unused : v.defect? space? earlier .unused =
      if name ∈ earlier.filterMap (·.nameIn space?) then some (.duplicateName name) else none := by
    rw [defect?, named, Option.bind_some]
  rw [named, Option.getD_some, checkName_checked, valid, unused]
  refine checked_bind fun _ => ?_
  split <;> rfl

/-- Variants are bound up to the first that has a defect. -/
theorem bindAll_eq (d : Declaration) (earlier vs : List VariantDeclaration) :
    bindAll d.space? (earlier.filterMap (·.nameIn d.space?)) vs =
      checked ((variantRequirements earlier vs).findSome? d.defect?)
        (vs.filterMap (·.bindingIn d.space?)) := by
  induction vs generalizing earlier with
  | nil => rfl
  | cons v rest ih =>
    have first : (Aspect.inOrder.map (.ofVariant earlier v)).findSome? d.defect? =
        Aspect.inOrder.findSome? (v.defect? d.space? earlier) := by
      rw [List.findSome?_map]
      rfl
    rw [bindAll, VariantDeclaration.bind_eq, variantRequirements, List.findSome?_append, first]
    refine checked_bind fun sound => ?_
    obtain ⟨name, named⟩ : ∃ name, v.nameIn d.space? = some name :=
      VariantDeclaration.exists_name earlier
        (List.findSome?_eq_none_iff.mp sound .named (by decide))
    have later : earlier.filterMap (·.nameIn d.space?) ++ [name] =
        (earlier ++ [v]).filterMap (·.nameIn d.space?) := by
      simp [named]
    have bound : v.bindingIn d.space? =
        some { ident := v.ident, name, hasPayload := v.contents = .tuple 1 } := by
      rw [VariantDeclaration.bindingIn, named, Option.map_some]
    rw [named, Option.getD_some, later, ih, List.filterMap_cons_some bound]
    cases (variantRequirements (earlier ++ [v]) rest).findSome? d.defect? <;> rfl

/-- Each aspect of each variant is asked about. -/
theorem mem_variantRequirements (earlier : List VariantDeclaration) {vs : List VariantDeclaration}
    {v : VariantDeclaration} (there : v ∈ vs) (aspect : Aspect) :
    ∃ before, .ofVariant before v aspect ∈ variantRequirements earlier vs := by
  induction vs generalizing earlier with
  | nil => cases there
  | cons w rest ih =>
    rw [variantRequirements]
    rcases List.mem_cons.mp there with rfl | later
    · have asked : aspect ∈ Aspect.inOrder := by cases aspect <;> decide
      exact ⟨earlier, List.mem_append_left _ (List.mem_map_of_mem asked)⟩
    · obtain ⟨before, asked⟩ := ih (earlier ++ [w]) later
      exact ⟨before, List.mem_append_right _ asked⟩

/-- What is asked is asked of a variant that is declared, after those before it. -/
theorem of_mem_variantRequirements {earlier vs : List VariantDeclaration} {r : Requirement}
    (asked : r ∈ variantRequirements earlier vs) :
    ∃ before v after aspect, vs = before ++ v :: after ∧
      r = .ofVariant (earlier ++ before) v aspect := by
  induction vs generalizing earlier with
  | nil => cases asked
  | cons v rest ih =>
    rcases List.mem_append.mp asked with here | later
    · obtain ⟨aspect, -, rfl⟩ := List.mem_map.mp here
      exact ⟨[], v, rest, aspect, rfl, by rw [List.append_nil]⟩
    · obtain ⟨before, w, after, aspect, rfl, rfl⟩ := ih later
      exact ⟨v :: before, w, after, aspect, rfl, by simp⟩

/-- Where all variants have names, there is a binding for each. -/
theorem bindings_of_met {d : Declaration} {earlier vs : List VariantDeclaration}
    (met : ∀ r ∈ variantRequirements earlier vs, d.defect? r = none) :
    (vs.filterMap (·.bindingIn d.space?)).map some = vs.map (·.bindingIn d.space?) := by
  rw [List.map_filterMap_some_eq_filter_map_isSome, List.filter_eq_self.mpr]
  intro binding there
  obtain ⟨v, declared, rfl⟩ := List.mem_map.mp there
  obtain ⟨before, asked⟩ := mem_variantRequirements earlier declared .named
  obtain ⟨name, named⟩ := VariantDeclaration.exists_name before (met _ asked)
  rw [VariantDeclaration.bindingIn, named]
  rfl

/-- **A declaration is refused for the first requirement that it does not meet, or else expanded to
its variants with their names.** -/
theorem Declaration.expand_eq (d : Declaration) :
    d.expand =
      checked (d.requirements.findSome? d.defect?)
        (d.variants.filterMap (·.bindingIn d.space?)) := by
  have inTurn : d.requirements.findSome? d.defect? =
      (d.defect? .enumeration).or ((d.defect? .attributes).or
        (((variantRequirements [] d.variants).findSome? d.defect?).or (d.defect? .inhabited))) := by
    simp only [requirements, List.cons_append, List.nil_append, List.findSome?_append,
      findSome?_cons_or, List.findSome?_nil, Option.or_none]
  rw [Declaration.expand, inTurn]
  cases enumeration : d.isEnumeration with
  | false => simp [Declaration.defect?, enumeration]
  | true =>
    have none : d.defect? .enumeration = none := by simp [Declaration.defect?, enumeration]
    rw [none, Option.none_or, if_neg (by decide), readAttributes_eq, Option.or_none]
    refine checked_bind fun _ => ?_
    have binds : bindAll d.space? [] d.variants = _ := bindAll_eq d [] d.variants
    rw [← Declaration.space?, binds]
    refine checked_bind fun sound => ?_
    -- no bindings means no variants, since each of them has one by now
    have all := bindings_of_met (List.findSome?_eq_none_iff.mp sound)
    have empty : (d.variants.filterMap (·.bindingIn d.space?)).isEmpty = true ↔
        d.variants = [] := by
      rw [List.isEmpty_iff, ← List.map_eq_nil_iff, all, List.map_eq_nil_iff]
    simp only [empty, Declaration.defect?]
    split <;> rfl

/-! ## Well-formed declarations -/

/-- A variant that can be bound in a kind with a namespace or without. -/
structure VariantDeclaration.Sound (space? : Option String) (v : VariantDeclaration) : Prop where
  contents : v.contents = .unit ∨ v.contents = .tuple 1
  attributes : ∀ a ∈ v.attributes, a.Sets "name"
  /-- it has a name of its own, or the kind has a namespace -/
  named : v.ownName? ≠ none ∨ space? ≠ none
  valid : ∀ name, v.nameIn space? = some name → ∃ parts, Event.Spells parts name

/-- A declaration that can be expanded. -/
structure Declaration.WellFormed (d : Declaration) : Prop where
  enumeration : d.isEnumeration = true
  attributes : ∀ a ∈ d.attributes, a.Sets "namespace"
  inhabited : d.variants ≠ []
  variants : ∀ v ∈ d.variants, v.Sound d.space?
  /-- no two variants have the same name -/
  distinct : (d.variants.filterMap (·.nameIn d.space?)).Nodup

theorem attributes_met_iff {key : String} {attributes : List Attribute} :
    attributes.findSome? (·.defect? key) = none ↔ ∀ a ∈ attributes, a.Sets key := by
  simp only [List.findSome?_eq_none_iff, Attribute.defect?_eq_none_iff]

/-- A variant meets what is asked of it if it is sound and its name is not used before. -/
theorem VariantDeclaration.met_iff {space? : Option String} {earlier : List VariantDeclaration}
    {v : VariantDeclaration} :
    (∀ aspect ∈ Aspect.inOrder, v.defect? space? earlier aspect = none) ↔
      v.Sound space? ∧
        ∀ name, v.nameIn space? = some name → name ∉ earlier.filterMap (·.nameIn space?) := by
  have named : v.nameIn space? ≠ none ↔ v.ownName? ≠ none ∨ space? ≠ none := by
    rw [nameIn]
    cases v.ownName? <;> cases space? <;> simp
  have aspects : (∀ aspect ∈ Aspect.inOrder, v.defect? space? earlier aspect = none) ↔
      (v.contents = .unit ∨ v.contents = .tuple 1) ∧ (∀ a ∈ v.attributes, a.Sets "name") ∧
        v.nameIn space? ≠ none ∧
        (∀ name, v.nameIn space? = some name → Event.isName name = true) ∧
        ∀ name, v.nameIn space? = some name → name ∉ earlier.filterMap (·.nameIn space?) := by
    simp only [Aspect.inOrder, List.forall_mem_cons, defect?, attributes_met_iff,
      Option.bind_eq_none_iff, ite_eq_left_iff, ite_eq_right_iff, reduceCtorEq, imp_false, not_not]
    simp
  rw [aspects, named]
  simp only [Event.isName_iff_spells]
  exact ⟨fun ⟨contents, attributes, named, valid, unused⟩ =>
    ⟨⟨contents, attributes, named, valid⟩, unused⟩,
    fun ⟨⟨contents, attributes, named, valid⟩, unused⟩ =>
    ⟨contents, attributes, named, valid, unused⟩⟩

/-- Variants meet what is asked of them if they are sound and no two names are the same, with those
of the variants before. -/
theorem variantRequirements_met_iff {d : Declaration} {earlier vs : List VariantDeclaration}
    (distinct : (earlier.filterMap (·.nameIn d.space?)).Nodup) :
    (∀ r ∈ variantRequirements earlier vs, d.defect? r = none) ↔
      (∀ v ∈ vs, v.Sound d.space?) ∧
        ((earlier ++ vs).filterMap (·.nameIn d.space?)).Nodup := by
  induction vs generalizing earlier with
  | nil => simpa [variantRequirements] using distinct
  | cons v rest ih =>
    have split : (∀ r ∈ variantRequirements earlier (v :: rest), d.defect? r = none) ↔
        (∀ aspect ∈ Aspect.inOrder, v.defect? d.space? earlier aspect = none) ∧
          ∀ r ∈ variantRequirements (earlier ++ [v]) rest, d.defect? r = none := by
      simp only [variantRequirements, List.forall_mem_append, List.forall_mem_map]
      rfl
    have next : ((earlier ++ [v]).filterMap (·.nameIn d.space?)).Nodup ↔
        ∀ name, v.nameIn d.space? = some name → name ∉ earlier.filterMap (·.nameIn d.space?) := by
      cases named : v.nameIn d.space? with
      | none => simpa [named] using distinct
      | some name =>
        have last : (earlier ++ [v]).filterMap (·.nameIn d.space?) =
            earlier.filterMap (·.nameIn d.space?) ++ [name] := by simp [named]
        rw [last, List.nodup_append_comm, List.singleton_append, List.nodup_cons]
        simp [distinct]
    have longer : earlier ++ v :: rest = (earlier ++ [v]) ++ rest := List.append_cons ..
    rw [split, VariantDeclaration.met_iff, ← next, List.forall_mem_cons, longer]
    constructor
    · rintro ⟨⟨sound, unused⟩, others⟩
      obtain ⟨sounds, nodup⟩ := (ih unused).mp others
      exact ⟨⟨sound, sounds⟩, nodup⟩
    · rintro ⟨⟨sound, sounds⟩, nodup⟩
      have unused : ((earlier ++ [v]).filterMap (·.nameIn d.space?)).Nodup :=
        nodup.sublist ((List.sublist_append_left _ _).filterMap _)
      exact ⟨⟨sound, unused⟩, (ih unused).mpr ⟨sounds, nodup⟩⟩

/-- The declarations that meet all requirements are the well-formed ones. -/
theorem Declaration.met_iff (d : Declaration) :
    (∀ r ∈ d.requirements, d.defect? r = none) ↔ d.WellFormed := by
  have split : (∀ r ∈ d.requirements, d.defect? r = none) ↔
      d.isEnumeration = true ∧ (∀ a ∈ d.attributes, a.Sets "namespace") ∧
        (∀ r ∈ variantRequirements [] d.variants, d.defect? r = none) ∧ d.variants ≠ [] := by
    simp [requirements, or_imp, forall_and, defect?, Attribute.defect?_eq_none_iff]
  have all : (∀ r ∈ variantRequirements [] d.variants, d.defect? r = none) ↔ _ :=
    variantRequirements_met_iff List.nodup_nil
  rw [split, all, List.nil_append]
  constructor
  · rintro ⟨enumeration, attributes, ⟨variants, distinct⟩, inhabited⟩
    exact ⟨enumeration, attributes, inhabited, variants, distinct⟩
  · rintro ⟨enumeration, attributes, inhabited, variants, distinct⟩
    exact ⟨enumeration, attributes, ⟨variants, distinct⟩, inhabited⟩

/-! ## The main result -/

/-- The declarations that have an expansion are the well-formed ones. -/
theorem Declaration.expands_iff (d : Declaration) :
    (∃ bindings, d.expand = .ok bindings) ↔ d.WellFormed := by
  rw [← d.met_iff, ← List.findSome?_eq_none_iff, d.expand_eq]
  simp [checked_eq_ok_iff]

/-- An expansion has a binding for each variant, in order. -/
theorem Declaration.bound_in_order {d : Declaration} {bindings : List Binding}
    (expands : d.expand = .ok bindings) :
    bindings.map some = d.variants.map (·.bindingIn d.space?) := by
  obtain ⟨met, rfl⟩ := checked_eq_ok_iff.mp (d.expand_eq.symm.trans expands)
  have variants : ∀ r ∈ variantRequirements [] d.variants, d.defect? r = none := fun r asked =>
    List.findSome?_eq_none_iff.mp met r (List.mem_append_left _ (List.mem_append_right _ asked))
  exact bindings_of_met variants

theorem Declaration.names_in_order {d : Declaration} {bindings : List Binding}
    (expands : d.expand = .ok bindings) :
    (bindings.map (·.name)).map some = d.variants.map (·.nameIn d.space?) := by
  calc (bindings.map (·.name)).map some
      = (bindings.map some).map (·.map (·.name)) := by
        simp only [List.map_map]
        rfl
    _ = d.variants.map (·.nameIn d.space?) := by
        rw [Declaration.bound_in_order expands, List.map_map]
        exact List.map_congr_left fun v _ => v.map_name_bindingIn d.space?

/-- **Exactly the well-formed declarations are expanded, and of others the first defect is told.** A
declaration has an expansion if and only if it is well-formed. The expansion binds every variant, in
the order of the declaration, to the name that it has, and these are the names of the kind. Any
other declaration is refused with the defect of one of its requirements, and those that come before
it are met. -/
theorem expansion_judges_in_order (d : Declaration) :
    ((∃ bindings, d.expand = .ok bindings) ↔ d.WellFormed) ∧
      (∀ bindings, d.expand = .ok bindings →
        bindings.map some = d.variants.map (·.bindingIn d.space?) ∧
        ∀ payload, (ofDeclaration d payload).names.map some =
          d.variants.map (·.nameIn d.space?)) ∧
      ∀ defect, d.expand = .error defect ↔
        ∃ before requirement after, d.requirements = before ++ requirement :: after ∧
          (∀ r ∈ before, d.defect? r = none) ∧ d.defect? requirement = some defect := by
  refine ⟨d.expands_iff, fun bindings expands => ?_, fun defect => ?_⟩
  · refine ⟨Declaration.bound_in_order expands, fun payload => ?_⟩
    rw [names_of_expand expands]
    exact Declaration.names_in_order expands
  · rw [d.expand_eq, checked_eq_error_iff, List.findSome?_eq_some_iff]
    constructor
    · rintro ⟨before, requirement, after, split, fails, met⟩
      exact ⟨before, requirement, after, split, met, fails⟩
    · rintro ⟨before, requirement, after, split, met, fails⟩
      exact ⟨before, requirement, after, split, fails, met⟩

/-- A declaration with three defects, of which the second variant has the first: it gives itself the
name that is generated for the one before it. -/
theorem expansion_judges_in_order_crowded :
    let placed : VariantDeclaration := ⟨"Placed", .unit, []⟩
    let sent : VariantDeclaration :=
      ⟨"Sent", .tuple 1, [⟨"event", .list [⟨"name", some (.text "order.placed")⟩]⟩]⟩
    let moved : VariantDeclaration := ⟨"Moved", .tuple 2, [⟨"event", .bare⟩]⟩
    let d : Declaration := ⟨true, "OrderEvent",
      [⟨"event", .list [⟨"namespace", some (.text "order")⟩]⟩], [placed, sent, moved]⟩
    d.expand = .error (.duplicateName "order.placed") ∧ ¬d.WellFormed := by
  intro placed sent moved d
  obtain ⟨expands, -, refused⟩ := expansion_judges_in_order d
  have defect : d.expand = .error (.duplicateName "order.placed") := by
    refine (refused _).mpr ⟨[.enumeration, .attributes] ++
      Aspect.inOrder.map (.ofVariant [] placed) ++
      [.contents, .attributes, .named, .valid].map (.ofVariant [placed] sent),
      .ofVariant [placed] sent .unused,
      Aspect.inOrder.map (.ofVariant [placed, sent] moved) ++ [.inhabited], rfl, ?_, ?_⟩
    · decide +kernel
    · decide +kernel
  refine ⟨defect, fun wellFormed => ?_⟩
  obtain ⟨bindings, accepted⟩ := expands.mpr wellFormed
  rw [defect] at accepted
  cases accepted

end DomainEvents.Kind
