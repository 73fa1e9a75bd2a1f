import DomainEvents.Event.Name
import DomainEvents.Kind.Declaration
import DomainEvents.Kind.SnakeCase

/-!
# Expansion of declarations

A declaration is expanded into the list of its bindings, which say for each variant what its events
are called and whether they have a payload. A variant that gives no name is called by the namespace
and the snake case of its identifier. The first defect met decides: of the attributes of the kind,
then of each variant its contents, its attributes and its name, and at the end whether there is a
variant at all.
-/

namespace DomainEvents.Kind

/-- What is wrong with a declaration. -/
inductive Defect where
  /-- it declares no enumeration -/
  | notEnumeration
  /-- an attribute without settings -/
  | bareAttribute
  /-- an attribute with a value instead of settings -/
  | assignedAttribute
  /-- a key that belongs elsewhere -/
  | misplacedKey
  /-- a key that no attribute has -/
  | unknownKey
  /-- a key without a value -/
  | missingValue
  /-- a value that is no text -/
  | valueNotText
  /-- settings that end where a value should stand -/
  | valueCutOff
  /-- something among the settings that is none -/
  | malformed (complaint : String)
  /-- a variant with more than one field or with named ones -/
  | contents
  /-- a variant without a name in a kind without a namespace -/
  | missingName
  /-- a name that no event can have -/
  | invalidName (name : String)
  /-- a name that an earlier variant has -/
  | duplicateName (name : String)
  /-- no variants -/
  | noVariants
deriving DecidableEq, Repr

/-- The text of a defect. -/
def Defect.message : Defect → String
  | .notEnumeration => "EventKind can only be derived for enums"
  | .bareAttribute => "expected attribute arguments in parentheses: #[event(...)]"
  | .assignedAttribute => "expected parentheses: #[event(...)]"
  | .misplacedKey => "`name` belongs on variants and `namespace` on the enum"
  | .unknownKey => "unsupported event attribute, expected `name` or `namespace`"
  | .missingValue => "expected `=`"
  | .valueNotText => "expected string literal"
  | .valueCutOff => "unexpected end of input, expected string literal"
  | .malformed complaint => complaint
  | .contents => "EventKind variants must be unit variants or wrap exactly one payload type"
  | .missingName =>
    "missing #[event(name = \"...\")] and no #[event(namespace = \"...\")] on the enum"
  | .invalidName name => "`" ++ name ++ "` is not a valid dot-namespaced event name"
  | .duplicateName name => "event name `" ++ name ++ "` is used by more than one variant"
  | .noVariants => "EventKind needs at least one variant"

/-- What a variant is bound to. -/
structure Binding where
  /-- the identifier of the variant -/
  ident : String
  /-- the name of its events -/
  name : String
  /-- whether they have a payload -/
  hasPayload : Bool
deriving DecidableEq, Repr

/-- The value of a setting, if its key is the one asked for. -/
def Setting.read (key : String) (setting : Setting) : Except Defect String :=
  if setting.key = key then
    match setting.value with
    | some (.text value) => .ok value
    | some .other => .error .valueNotText
    | some .missing => .error .valueCutOff
    | none => .error .missingValue
  else if setting.key = "name" ∨ setting.key = "namespace" then .error .misplacedKey
  else .error .unknownKey

/-- The value of a key in a list of settings, the last one if it is set more than once; `found` is
the value so far. -/
def readSettings (key : String) (found : Option String) :
    List Setting → Except Defect (Option String)
  | [] => .ok found
  | setting :: rest => do readSettings key (some (← setting.read key)) rest

/-- The value of a key in the attributes `event`; `found` is the value so far. What breaks the
settings of an attribute is noticed after the settings before it have been read. -/
def readAttributes (key : String) (found : Option String) :
    List Attribute → Except Defect (Option String)
  | [] => .ok found
  | attr :: rest =>
    if attr.path = "event" then
      match attr.arguments with
      | .list settings => do readAttributes key (← readSettings key found settings) rest
      | .broken settings complaint => do
        let _ ← readSettings key found settings
        .error (.malformed complaint)
      | .bare => .error .bareAttribute
      | .assigned => .error .assignedAttribute
    else readAttributes key found rest

/-- Refuses a name that is empty, has a blank in it or an empty segment: events cannot have it
(`checkName_eq`). -/
def checkName (name : String) : Except Defect Unit :=
  if name.isEmpty || name.toList.any Text.isBlank ||
      (Text.segments name.toList).any (·.isEmpty) then
    .error (.invalidName name)
  else .ok ()

/-- What is accepted here are the names that events can have. -/
theorem checkName_eq (name : String) :
    checkName name = if Event.isName name then .ok () else .error (.invalidName name) := by
  by_cases empty : name = ""
  · subst empty
    rfl
  · have nonempty : name.isEmpty = false := by simpa using empty
    rw [checkName, Event.isName, nonempty]
    cases name.toList.any Text.isBlank <;>
      cases (Text.segments name.toList).any (·.isEmpty) <;> rfl

/-- Whether a variant has a payload: it has none without fields and one with a single field. -/
def Contents.hasPayload : Contents → Except Defect Bool
  | .unit => .ok false
  | .tuple 1 => .ok true
  | _ => .error .contents

/-- The name of the events of a variant. -/
def VariantDeclaration.resolveName (space? : Option String) (v : VariantDeclaration) :
    Except Defect String := do
  match ← readAttributes "name" none v.attributes, space? with
  | some name, _ => return name
  | none, some space => return space ++ "." ++ snakeCase v.ident
  | none, none => .error .missingName

/-- Binds a variant, whose name must not be one of those `used` before. -/
def VariantDeclaration.bind (space? : Option String) (used : List String)
    (v : VariantDeclaration) : Except Defect Binding := do
  let hasPayload ← v.contents.hasPayload
  let name ← v.resolveName space?
  checkName name
  if name ∈ used then .error (.duplicateName name)
  else return { ident := v.ident, name, hasPayload }

/-- Binds the variants in order. -/
def bindAll (space? : Option String) (used : List String) :
    List VariantDeclaration → Except Defect (List Binding)
  | [] => .ok []
  | v :: rest => do
    let binding ← v.bind space? used
    let more ← bindAll space? (used ++ [binding.name]) rest
    return binding :: more

/-- The bindings of a declaration. -/
def Declaration.expand (d : Declaration) : Except Defect (List Binding) := do
  if !d.isEnumeration then .error .notEnumeration
  else
    let space? ← readAttributes "namespace" none d.attributes
    let bindings ← bindAll space? [] d.variants
    if bindings.isEmpty then .error .noVariants else return bindings

end DomainEvents.Kind
