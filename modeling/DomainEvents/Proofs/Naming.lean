import DomainEvents.Interest
import DomainEvents.Kind.Expansion

/-!
# Names and namespaces

Two places refuse the names that no event can have: a bus before it takes an event
(`Event.checkName`), and the expansion of a declaration (`Kind.checkName`). Both look for what must
not be there, a blank or an empty piece between dots. What is left can be built up instead: one
segment or more, each not empty and without dots and blanks, with a dot between any two
(`Event.Spells`). There is only one way to spell a name, since the segments are read off it again by
splitting at the dots.

A namespace is compared with a name character by character. What comes out is the order of the lists
of segments by prefixes (`Interest.covers_iff_segments`), and so it has the laws of that order.
-/

namespace DomainEvents

namespace Text

/-- What holds of all characters in the pieces of a text holds of all but those it is split at. -/
theorem forall_mem_splitOn (P : Char → Prop) (x : Char) (cs : List Char) :
    (∀ piece ∈ cs.splitOn x, ∀ c ∈ piece, P c) ↔ ∀ c ∈ cs, c ≠ x → P c := by
  induction cs with
  | nil => simp
  | cons c rest ih =>
    obtain ⟨piece, more, first⟩ := List.exists_cons_of_ne_nil (List.splitOn_ne_nil x rest)
    rw [first, List.forall_mem_cons] at ih
    rw [List.forall_mem_cons, ← ih, List.splitOn_cons_eq_if_modifyHead, first]
    by_cases same : c = x
    · simp [same]
    · simp [same, and_assoc]

/-- No segment holds a dot. -/
theorem not_mem_of_mem_segments {cs segment : List Char} (there : segment ∈ segments cs) :
    '.' ∉ segment := by
  have undotted := (forall_mem_splitOn (· ≠ '.') '.' cs).mpr fun _ _ other => other
  exact fun dotted => undotted segment there '.' dotted rfl

end Text

/-! ## The grammar of names -/

namespace Event

/-- A segment of a name. -/
structure Segment (s : String) : Prop where
  nonempty : s ≠ ""
  undotted : '.' ∉ s.toList
  unblank : ∀ c ∈ s.toList, Text.isBlank c = false

theorem segment_iff (s : String) :
    Segment s ↔ s ≠ "" ∧ '.' ∉ s.toList ∧ s.toList.any Text.isBlank = false := by
  rw [List.any_eq_false]
  constructor
  · rintro ⟨nonempty, undotted, unblank⟩
    exact ⟨nonempty, undotted, by simpa using unblank⟩
  · rintro ⟨nonempty, undotted, unblank⟩
    exact ⟨nonempty, undotted, by simpa using unblank⟩

instance (s : String) : Decidable (Segment s) := decidable_of_iff' _ (segment_iff s)

/-- One segment or more that make a name, with a dot between any two. -/
structure Spells (parts : List String) (name : String) : Prop where
  nonempty : parts ≠ []
  segments : ∀ s ∈ parts, Segment s
  joined : ".".intercalate parts = name

/-- The parts that spell a name are its segments. -/
theorem Spells.segments_eq {parts : List String} {name : String} (spells : Spells parts name) :
    Text.segments name.toList = parts.map String.toList := by
  rw [Text.segments, ← spells.joined, String.toList_intercalate]
  refine List.splitOn_intercalate '.' ?_ (by simpa using spells.nonempty)
  intro segment there
  obtain ⟨s, part, rfl⟩ := List.mem_map.mp there
  exact (spells.segments s part).undotted

/-- There is only one way to spell a name. -/
theorem Spells.unique {parts others : List String} {name : String} (spells : Spells parts name)
    (again : Spells others name) : parts = others := by
  have same : parts.map String.toList = others.map String.toList :=
    spells.segments_eq.symm.trans again.segments_eq
  exact (List.map_inj_right fun _ _ => String.toList_inj.mp).mp same

/-- The segments of a text join to the text. -/
theorem intercalate_segments (name : String) :
    ".".intercalate ((Text.segments name.toList).map String.ofList) = name := by
  have joined : ['.'].intercalate (Text.segments name.toList) = name.toList := by
    rw [Text.segments, List.intercalate_splitOn]
  rw [← String.toList_inj, String.toList_intercalate, List.map_map]
  simpa [Function.comp_def] using joined

/-- A name is a text whose pieces between the dots are segments. -/
theorem isName_iff_segments (name : String) :
    isName name = true ↔
      ∀ segment ∈ Text.segments name.toList, Segment (String.ofList segment) := by
  have blanks := Text.forall_mem_splitOn (Text.isBlank · = false) '.' name.toList
  have dot : Text.isBlank '.' = false := rfl
  have split : (∀ c ∈ name.toList, Text.isBlank c = false) ↔
      ∀ segment ∈ Text.segments name.toList, ∀ c ∈ segment, Text.isBlank c = false := by
    rw [Text.segments, blanks]
    refine forall₂_congr fun c _ => ⟨fun h _ => h, fun h => ?_⟩
    by_cases there : c = '.'
    · rw [there, dot]
    · exact h there
  have spelt : isName name = true ↔ (∀ c ∈ name.toList, Text.isBlank c = false) ∧
      ∀ segment ∈ Text.segments name.toList, segment ≠ [] := by
    simp [isName]
  rw [spelt, split]
  constructor
  · rintro ⟨unblank, nonempty⟩ segment there
    refine ⟨?_, ?_, ?_⟩
    · simpa [← String.toList_inj] using nonempty segment there
    · simpa using Text.not_mem_of_mem_segments there
    · simpa using unblank segment there
  · intro all
    refine ⟨fun segment there => by simpa using (all segment there).unblank, ?_⟩
    intro segment there
    simpa [← String.toList_inj] using (all segment there).nonempty

/-- **Names are what the grammar spells.** -/
theorem isName_iff_spells (name : String) :
    isName name = true ↔ ∃ parts, Spells parts name := by
  rw [isName_iff_segments]
  constructor
  · intro all
    refine ⟨(Text.segments name.toList).map String.ofList, ?_, ?_, intercalate_segments name⟩
    · simpa using Text.segments_ne_nil name.toList
    · intro s part
      obtain ⟨segment, there, rfl⟩ := List.mem_map.mp part
      exact all segment there
  · rintro ⟨parts, spells⟩ segment there
    rw [spells.segments_eq] at there
    obtain ⟨s, part, rfl⟩ := List.mem_map.mp there
    rw [String.ofList_toList]
    exact spells.segments s part

/-- A name goes on with any further segment. -/
theorem Spells.extend {parts : List String} {name s : String} (spells : Spells parts name)
    (segment : Segment s) : Spells (parts ++ [s]) (name ++ "." ++ s) := by
  refine ⟨by simp, ?_, ?_⟩
  · intro t there
    rcases List.mem_append.mp there with there | last
    · exact spells.segments t there
    · rw [List.mem_singleton.mp last]
      exact segment
  · rw [String.intercalate_append_of_ne_nil spells.nonempty (by simp), spells.joined,
      String.intercalate_singleton]

/-! ## What is refused -/

/-- A bus says of the empty text that the name is missing, and gives back what else is no name. -/
theorem checkName_eq_error_iff (name : String) (error : ValidationError) :
    checkName name = .error error ↔
      name = "" ∧ error = .missingField "name" ∨
        name ≠ "" ∧ isName name = false ∧ error = .invalidValue "name" name := by
  by_cases empty : name = ""
  · subst empty
    have missing : checkName "" = .error (.missingField "name") := rfl
    rw [missing, Except.error.injEq, eq_comm]
    simp
  · rw [checkName, if_neg (by simpa using empty)]
    cases isName name with
    | true => simp [empty]
    | false =>
      rw [if_neg Bool.false_ne_true, Except.error.injEq, eq_comm]
      simp [empty]

end Event

namespace Kind

/-- The expansion of a declaration gives back what is no name. -/
theorem checkName_eq_error_iff (name : String) (defect : Defect) :
    checkName name = .error defect ↔ Event.isName name = false ∧ defect = .invalidName name := by
  rw [checkName_eq]
  cases Event.isName name <;> simp [eq_comm]

end Kind

namespace Event

/-- **A text is accepted as a name exactly if the grammar spells it, here and there.** It is then
spelled in one way only. A bus says of the empty text that the name is missing, and gives back every
other text that is no name. The expansion of a declaration accepts the same texts, and gives back
all others. -/
theorem names_are_spelled (name : String) :
    (checkName name = .ok () ↔ ∃ parts, Spells parts name) ∧
      (∀ parts others, Spells parts name → Spells others name → parts = others) ∧
      (checkName name = .error (.missingField "name") ↔ name = "") ∧
      (checkName name = .error (.invalidValue "name" name) ↔
        name ≠ "" ∧ ¬∃ parts, Spells parts name) ∧
      (∀ error, checkName name = .error error →
        error = .missingField "name" ∨ error = .invalidValue "name" name) ∧
      (Kind.checkName name = .ok () ↔ checkName name = .ok ()) ∧
      ∀ defect, Kind.checkName name = .error defect ↔
        (¬∃ parts, Spells parts name) ∧ defect = .invalidName name := by
  have declared : Kind.checkName name = .ok () ↔ isName name = true := by
    rw [Kind.checkName_eq]
    cases isName name <;> simp
  rw [declared, checkName_eq_ok_iff, ← isName_iff_spells, Bool.not_eq_true]
  refine ⟨Iff.rfl, fun _ _ => Spells.unique, ?_, ?_, ?_, Iff.rfl, Kind.checkName_eq_error_iff name⟩
  · simp [checkName_eq_error_iff]
  · simp [checkName_eq_error_iff]
  · intro error refused
    rcases (checkName_eq_error_iff name error).mp refused with ⟨-, missing⟩ | ⟨-, -, invalid⟩
    · exact .inl missing
    · exact .inr invalid

/-- Two segments spell a name, and nothing spells what ends in a dot. -/
theorem names_are_spelled_trailing :
    checkName "order.placed" = .ok () ∧ Kind.checkName "order.placed" = .ok () ∧
      (∀ parts, Spells parts "order.placed" → parts = ["order", "placed"]) ∧
      ¬∃ parts, Spells parts "order." := by
  obtain ⟨accepted, unique, -, -, -, declared, -⟩ := names_are_spelled "order.placed"
  have segments : Segment "order" ∧ Segment "placed" := by decide +kernel
  have spells : Spells ["order", "placed"] "order.placed" :=
    ⟨by decide, by simpa using segments, rfl⟩
  obtain ⟨-, -, -, refused, -⟩ := names_are_spelled "order."
  have good := accepted.mpr ⟨_, spells⟩
  exact ⟨good, declared.mpr good, fun parts again => unique _ _ again spells, (refused.mp rfl).2⟩

end Event

/-! ## Namespaces -/

namespace Interest

/-- A name is in a namespace if what follows the characters of the namespace is nothing, or starts
with a dot. -/
theorem inSpace_iff_rest (space name : List Char) :
    inSpace space name = true ↔
      ∃ rest, name = space ++ rest ∧ (rest = [] ∨ ∃ more, rest = '.' :: more) := by
  fun_induction inSpace space name with
  | case1 => simp
  | case2 c name => simp
  | case3 => simp
  | case4 s space c name ih =>
    rw [Bool.and_eq_true, beq_iff_eq, ih]
    simp only [List.cons_append, List.cons.injEq, and_assoc, exists_and_left, eq_comm (a := s)]

/-- A namespace covers a name if nothing is left of the name after it, or something that starts with
a dot. -/
theorem covers_iff_rest (space name : String) :
    (within space).covers name = true ↔
      ∃ rest, name = space ++ rest ∧ (rest = "" ∨ ∃ more, rest = "." ++ more) := by
  rw [covers, inSpace_iff_rest]
  constructor
  · rintro ⟨rest, splits, ends⟩
    refine ⟨String.ofList rest, ?_, ?_⟩
    · exact String.toList_inj.mp (by simpa using splits)
    · rcases ends with rfl | ⟨more, rfl⟩
      · exact .inl rfl
      · exact .inr ⟨String.ofList more, String.toList_inj.mp (by simp)⟩
  · rintro ⟨rest, rfl, ends⟩
    refine ⟨rest.toList, String.toList_append, ?_⟩
    rcases ends with rfl | ⟨more, rfl⟩
    · exact .inl rfl
    · exact .inr ⟨more.toList, by simp⟩

/-- A namespace covers the names that start with its segments. -/
theorem covers_iff_segments (space name : String) :
    (within space).covers name = true ↔
      space.toList.splitOn '.' <+: name.toList.splitOn '.' :=
  inSpace_iff_segments space.toList name.toList

/-- A text is given by its segments. -/
theorem eq_of_segments {space name : String}
    (same : space.toList.splitOn '.' = name.toList.splitOn '.') : space = name := by
  have joined (s : String) : ['.'].intercalate (s.toList.splitOn '.') = s.toList :=
    List.intercalate_splitOn '.'
  rw [← String.toList_inj, ← joined space, same, joined]

/-- **Namespaces cover names by their segments.** A namespace covers the names whose segments start
with its own, whether or not the two texts are names that events can have. In characters: the name
starts with the namespace, and what is left is nothing or starts with a dot. So every text covers
itself, a namespace covers what is covered by a namespace in it, only the same text is covered both
ways, and of two namespaces that cover the same name one covers the other. -/
theorem namespaces_order_names :
    (∀ space name : String, (within space).covers name = true ↔
        space.toList.splitOn '.' <+: name.toList.splitOn '.') ∧
      (∀ space name : String, (within space).covers name = true ↔
        ∃ rest, name = space ++ rest ∧ (rest = "" ∨ ∃ more, rest = "." ++ more)) ∧
      (∀ name, (within name).covers name = true) ∧
      (∀ space inner name, (within space).covers inner = true →
        (within inner).covers name = true → (within space).covers name = true) ∧
      (∀ space name, (within space).covers name = true →
        (within name).covers space = true → space = name) ∧
      ∀ space other name, (within space).covers name = true →
        (within other).covers name = true →
        (within space).covers other = true ∨ (within other).covers space = true := by
  refine ⟨covers_iff_segments, covers_iff_rest, ?_, ?_, ?_, ?_⟩
  · intro name
    exact (covers_iff_segments name name).mpr (List.prefix_refl _)
  · intro space inner name
    simp only [covers_iff_segments]
    exact List.IsPrefix.trans
  · intro space name
    simp only [covers_iff_segments]
    intro there back
    exact eq_of_segments (there.eq_of_length_le back.length_le)
  · intro space other name
    simp only [covers_iff_segments]
    exact List.prefix_or_prefix_of_prefix

/-- Texts that are no names: a namespace that ends in a dot has an empty segment at its end, and
covers what has one there. -/
theorem namespaces_order_names_trailing :
    (within "order.").covers "order..placed" = true ∧
      (within "order.").covers "order.placed" = false ∧
      (within "order").covers "order..placed" = true := by
  obtain ⟨segments, -, -, trans, -, -⟩ := namespaces_order_names
  have inner : (within "order.").covers "order..placed" = true :=
    (segments _ _).mpr (by decide +kernel)
  have outer : (within "order").covers "order." = true := (segments _ _).mpr (by decide +kernel)
  have apart : ¬(within "order.").covers "order.placed" = true :=
    fun there => absurd ((segments _ _).mp there) (by decide +kernel)
  exact ⟨inner, Bool.eq_false_iff.mpr apart, trans _ _ _ outer inner⟩

end Interest

end DomainEvents
