import DomainEvents.Proofs.Kind.Expanding
import Mathlib

/-!
# Generated names

A variant that gives itself no name is called by the namespace and the spelling of its identifier in
small letters, where an underscore stands before each capital but the first character. Of
identifiers in camel case (`Camel`) nothing is lost in this: what stands between two underscores is
a word, and the words with a capital for each make the identifier again (`camelCase_snakeCase`). The
invariant of the spelling is that a word has been begun. So different identifiers have different
spellings, and since a spelling is a segment of a name (`segment_snakeCase`), no expansion can fail
for a name that was generated.
-/

namespace DomainEvents

/-! ## Capitals of ASCII -/

namespace Text

theorem isUpper_iff {c : Char} : c.isUpper = true ↔ 65 ≤ c.toNat ∧ c.toNat ≤ 90 := by
  simp [Char.isUpper, UInt32.le_iff_toNat_le, ← Char.toNat_val]

/-- The runs of capitals after the first lie outside ASCII. -/
theorem later_runs : ∀ run ∈ capitalRuns.tail, 128 ≤ run.first := by
  decide +kernel

/-- Of the characters of ASCII the capitals are those from A to Z. -/
theorem capitalRun?_ascii {c : Char} (ascii : c.toNat < 128) :
    capitalRun? c = if c.isUpper then some ⟨0x41, 0x5A, 1, 32⟩ else none := by
  have others : capitalRuns.tail.find? (·.covers c.toNat) = none := by
    refine List.find?_eq_none.mpr fun run there covers => ?_
    have first := later_runs run there
    simp only [CapitalRun.covers, Bool.and_eq_true, decide_eq_true_eq] at covers
    omega
  have runs : capitalRuns = ⟨0x41, 0x5A, 1, 32⟩ :: capitalRuns.tail := rfl
  rw [capitalRun?, runs, List.find?_cons, others]
  have covers : CapitalRun.covers ⟨0x41, 0x5A, 1, 32⟩ c.toNat = c.isUpper := by
    rw [Bool.eq_iff_iff, isUpper_iff]
    simp [CapitalRun.covers, Nat.mod_one]
  rw [covers]
  cases c.isUpper <;> rfl

theorem isCapital_of_isUpper {c : Char} (upper : c.isUpper = true) : isCapital c = true := by
  have ascii : c.toNat < 128 := by have := isUpper_iff.mp upper; omega
  rw [isCapital, capitalRun?_ascii ascii, if_pos upper]
  rfl

/-- The small form of a capital of ASCII is its small letter. -/
theorem smallForm_of_isUpper {c : Char} (upper : c.isUpper = true) : smallForm c = [c.toLower] := by
  have range := isUpper_iff.mp upper
  have other : c ≠ '\u0130' := by
    rintro rfl
    revert range
    decide
  rw [smallForm, if_neg other, capitalRun?_ascii (by omega), if_pos upper,
    Char.toLower_eq_of_isUpper upper]
  rfl

end Text

namespace Kind

/-! ## Words

An underscore is neither a capital nor plain, so it stands in a spelling only where a word ends and
the next begins. -/

/-- A small letter or a digit of ASCII. -/
def Plain (c : Char) : Prop := c.isLower = true ∨ c.isDigit = true

/-- What stands between two underscores of a spelling. -/
structure Word (cs : List Char) : Prop where
  nonempty : cs ≠ []
  plain : ∀ c ∈ cs, Plain c

/-- An identifier in camel case: letters and digits of ASCII, and a capital first. -/
structure Camel (ident : String) : Prop where
  starts : ∃ c ∈ ident.toList.head?, c.isUpper = true
  plain : ∀ c ∈ ident.toList, c.isAlphanum = true

/-- A text with a capital for its first character. -/
def capitalized : List Char → List Char
  | [] => []
  | c :: rest => c.toUpper :: rest

/-- The words between the underscores, with a capital for each. -/
def camelCase (spelling : String) : String :=
  String.ofList ((spelling.toList.splitOn '_').flatMap capitalized)

/-- A letter or digit is a capital or plain. -/
theorem plain_of_isAlphanum {c : Char} (alphanum : c.isAlphanum = true)
    (lower : ¬c.isUpper = true) : Plain c := by
  simpa [Char.isAlphanum, Char.isAlpha, lower, Plain] using alphanum

theorem Plain.toNat_bounds {c : Char} (plain : Plain c) :
    48 ≤ c.toNat ∧ c.toNat ≤ 57 ∨ 97 ≤ c.toNat ∧ c.toNat ≤ 122 := by
  rcases plain with lower | digit
  · right
    simpa [Char.isLower, UInt32.le_iff_toNat_le, ← Char.toNat_val] using lower
  · left
    simpa [Char.isDigit, UInt32.le_iff_toNat_le, ← Char.toNat_val] using digit

theorem not_isCapital_of_plain {c : Char} (plain : Plain c) : Text.isCapital c = false := by
  have bounds := plain.toNat_bounds
  have lower : ¬c.isUpper = true := by
    rw [Text.isUpper_iff]
    omega
  rw [Text.isCapital, Text.capitalRun?_ascii (by omega), if_neg lower]
  rfl

theorem Plain.not_isBlank {c : Char} (plain : Plain c) : Text.isBlank c = false := by
  have bounds := plain.toNat_bounds
  simp only [Text.isBlank, Text.blankRanges, List.any_cons, List.any_nil, Bool.or_false,
    Bool.or_eq_false_iff, Bool.and_eq_false_iff, decide_eq_false_iff_not]
  omega

theorem plain_toLower {c : Char} (upper : c.isUpper = true) : Plain c.toLower := by
  refine .inl ?_
  rw [Char.isLower_toLower_eq_isAlpha, Char.isAlpha, upper, Bool.true_or]

theorem toUpper_toLower {c : Char} (upper : c.isUpper = true) : c.toLower.toUpper = c := by
  rw [Char.toUpper_toLower_eq_toUpper,
    Char.toUpper_eq_of_not_isLower (Char.not_isLower_of_isUpper upper)]

theorem underscore_not_mem {cs : List Char} (plain : ∀ c ∈ cs, Plain c) : '_' ∉ cs := by
  intro there
  rcases plain '_' there with lower | digit
  · cases lower
  · cases digit

/-- **From a word that has been begun the spelling goes on with words, which give back what is
spelled.** -/
theorem words_snakeTail {word rest : List Char} (begun : Word word)
    (plain : ∀ c ∈ rest, c.isAlphanum = true) :
    (∀ w ∈ (word ++ snakeTail rest).splitOn '_', Word w) ∧
      ((word ++ snakeTail rest).splitOn '_').flatMap capitalized = capitalized word ++ rest := by
  induction rest generalizing word with
  | nil =>
    rw [snakeTail, List.append_nil, List.splitOn_eq_singleton (underscore_not_mem begun.plain)]
    exact ⟨by simpa using begun, by simp⟩
  | cons c rest ih =>
    obtain ⟨alphanum, plain⟩ := List.forall_mem_cons.mp plain
    by_cases upper : c.isUpper = true
    · -- the word ends before the capital, which begins the next
      have next : Word [c.toLower] := ⟨by simp, by simpa using plain_toLower upper⟩
      obtain ⟨words, back⟩ := ih next plain
      have spelled : word ++ snakeTail (c :: rest) =
          word ++ '_' :: ([c.toLower] ++ snakeTail rest) := by
        rw [snakeTail, if_pos (Text.isCapital_of_isUpper upper), Text.smallForm_of_isUpper upper]
        rfl
      rw [spelled, List.splitOn_append_cons_self_of_not_mem (underscore_not_mem begun.plain)]
      refine ⟨List.forall_mem_cons.mpr ⟨begun, words⟩, ?_⟩
      rw [List.flatMap_cons, back, capitalized, toUpper_toLower upper]
      rfl
    · -- the word goes on
      have low : Plain c := plain_of_isAlphanum alphanum upper
      have longer : Word (word ++ [c]) := by
        refine ⟨by simp, fun d there => ?_⟩
        rcases List.mem_append.mp there with there | last
        · exact begun.plain d there
        · rw [List.mem_singleton.mp last]
          exact low
      obtain ⟨words, back⟩ := ih longer plain
      have spelled : word ++ snakeTail (c :: rest) = (word ++ [c]) ++ snakeTail rest := by
        rw [snakeTail, if_neg (by simp [not_isCapital_of_plain low]), List.append_assoc]
        rfl
      rw [spelled]
      refine ⟨words, ?_⟩
      obtain ⟨d, more, first⟩ := List.exists_cons_of_ne_nil begun.nonempty
      rw [back, first]
      simp [capitalized]

/-! ## Spellings -/

/-- An identifier in camel case begins a word with its capital. -/
theorem Camel.spelling {ident : String} (camel : Camel ident) :
    ∃ c rest, ident.toList = c :: rest ∧ c.isUpper = true ∧
      (∀ d ∈ rest, d.isAlphanum = true) ∧ Word [c.toLower] ∧
      (snakeCase ident).toList = [c.toLower] ++ snakeTail rest := by
  obtain ⟨c, first, upper⟩ := camel.starts
  obtain ⟨rest, split⟩ := List.head?_eq_some_iff.mp first
  refine ⟨c, rest, split, upper, fun d there => ?_, ⟨by simp, ?_⟩, ?_⟩
  · exact camel.plain d (split ▸ List.mem_cons_of_mem c there)
  · simpa using plain_toLower upper
  · rw [snakeCase, String.toList_ofList, split, snakeChars, Text.smallForm_of_isUpper upper]

/-- What stands between the underscores of a spelling are words. -/
theorem words_snakeCase {ident : String} (camel : Camel ident) :
    ∀ w ∈ (snakeCase ident).toList.splitOn '_', Word w := by
  obtain ⟨c, rest, -, -, plain, begun, spelled⟩ := camel.spelling
  rw [spelled]
  exact (words_snakeTail begun plain).1

/-- **The words of a spelling make the identifier again.** -/
theorem camelCase_snakeCase {ident : String} (camel : Camel ident) :
    camelCase (snakeCase ident) = ident := by
  obtain ⟨c, rest, split, upper, plain, begun, spelled⟩ := camel.spelling
  rw [camelCase, spelled, (words_snakeTail begun plain).2, capitalized, toUpper_toLower upper,
    ← String.toList_inj, String.toList_ofList, split]
  rfl

/-- Different identifiers in camel case have different spellings. -/
theorem eq_of_snakeCase_eq {ident other : String} (camel : Camel ident) (again : Camel other)
    (same : snakeCase ident = snakeCase other) : ident = other := by
  rw [← camelCase_snakeCase camel, same, camelCase_snakeCase again]

/-- A spelling can stand in a name. -/
theorem segment_snakeCase {ident : String} (camel : Camel ident) :
    Event.Segment (snakeCase ident) := by
  have chars : ∀ c ∈ (snakeCase ident).toList, c ≠ '_' → Plain c :=
    (Text.forall_mem_splitOn Plain '_' _).mp fun w there => (words_snakeCase camel w there).plain
  refine ⟨?_, ?_, ?_⟩
  · rintro empty
    have back := camelCase_snakeCase camel
    obtain ⟨c, first, -⟩ := camel.starts
    rw [← back, empty] at first
    cases first
  · intro dot
    rcases chars '.' dot (by decide) with lower | digit
    · cases lower
    · cases digit
  · intro c there
    by_cases underscore : c = '_'
    · rw [underscore]
      rfl
    · exact (chars c there underscore).not_isBlank

/-! ## Defects of names

A declaration may have other defects than those of its names, and they may come first. So what is
shown of generated names is that they are never what a declaration is refused for. -/

/-- The name that a defect is about. -/
def Defect.name? : Defect → Option String
  | .invalidName name => some name
  | .duplicateName name => some name
  | _ => none

theorem Setting.name?_of_defect {key : String} {s : Setting} {defect : Defect}
    (found : s.defect? key = some defect) : defect.name? = none := by
  rw [Setting.defect?] at found
  split at found
  · split at found <;> cases found <;> rfl
  · split at found <;> cases found <;> rfl

theorem name?_of_findSome? {α : Type} {f : α → Option Defect} {l : List α} {defect : Defect}
    (found : l.findSome? f = some defect)
    (each : ∀ a ∈ l, ∀ defect, f a = some defect → defect.name? = none) : defect.name? = none := by
  obtain ⟨a, there, found⟩ := List.exists_of_findSome?_eq_some found
  exact each a there defect found

/-- No attribute is wrong for a name. -/
theorem Attribute.name?_of_defect {key : String} {a : Attribute} {defect : Defect}
    (found : a.defect? key = some defect) : defect.name? = none := by
  obtain ⟨path, arguments⟩ := a
  rw [Attribute.defect?] at found
  split at found
  · cases arguments with
    | list settings => exact name?_of_findSome? found fun _ _ _ => Setting.name?_of_defect
    | broken settings complaint =>
      rcases Option.or_eq_some_iff.mp found with found | ⟨-, found⟩
      · exact name?_of_findSome? found fun _ _ _ => Setting.name?_of_defect
      · cases found
        rfl
    | bare =>
      cases found
      rfl
    | assigned =>
      cases found
      rfl
  · cases found

/-- A declaration is wrong for a name only where a variant is to have one that is valid and unused.
-/
theorem Declaration.aspect_of_name? {d : Declaration} {r : Requirement} {defect : Defect}
    {name : String} (found : d.defect? r = some defect) (about : defect.name? = some name) :
    ∃ earlier v, r = .ofVariant earlier v .valid ∨ r = .ofVariant earlier v .unused := by
  cases r with
  | enumeration =>
    rw [Declaration.defect?] at found
    split at found <;> cases found
    cases about
  | attributes =>
    rw [name?_of_findSome? found fun _ _ _ => Attribute.name?_of_defect] at about
    cases about
  | ofVariant earlier v aspect =>
    cases aspect with
    | contents =>
      rw [Declaration.defect?, VariantDeclaration.defect?] at found
      split at found <;> cases found
      cases about
    | attributes =>
      rw [name?_of_findSome? found fun _ _ _ => Attribute.name?_of_defect] at about
      cases about
    | named =>
      rw [Declaration.defect?, VariantDeclaration.defect?] at found
      split at found <;> cases found
      cases about
    | valid => exact ⟨earlier, v, .inl rfl⟩
    | unused => exact ⟨earlier, v, .inr rfl⟩
  | inhabited =>
    rw [Declaration.defect?] at found
    split at found <;> cases found
    cases about

/-! ## Declarations that name their variants by a namespace -/

/-- A declaration with a namespace that events can have for a name, where no variant gives itself a
name and the identifiers of the variants are different and in camel case. -/
structure Declaration.Generates (d : Declaration) (space : String) : Prop where
  given : d.space? = some space
  valid : Event.isName space = true
  unnamed : ∀ v ∈ d.variants, v.ownName? = none
  camel : ∀ v ∈ d.variants, Camel v.ident
  distinct : (d.variants.map (·.ident)).Nodup

namespace Declaration.Generates

variable {d : Declaration} {space : String} {v : VariantDeclaration}

/-- A variant is called by the namespace and the spelling of its identifier. -/
theorem nameIn (generates : d.Generates space) (there : v ∈ d.variants) :
    v.nameIn d.space? = some (space ++ "." ++ snakeCase v.ident) := by
  rw [VariantDeclaration.nameIn, generates.unnamed v there, generates.given]
  rfl

theorem names (generates : d.Generates space) :
    d.variants.filterMap (·.nameIn d.space?) =
      d.variants.map fun v => space ++ "." ++ snakeCase v.ident := by
  rw [← List.filterMap_eq_map]
  exact List.filterMap_congr fun v there => generates.nameIn there

/-- No name is generated twice. -/
theorem nodup (generates : d.Generates space) :
    (d.variants.filterMap (·.nameIn d.space?)).Nodup := by
  have distinct := generates.distinct
  rw [generates.names]
  rw [List.Nodup, List.pairwise_map] at distinct ⊢
  refine distinct.imp_of_mem fun first second differ same => differ ?_
  refine eq_of_snakeCase_eq (generates.camel _ first) (generates.camel _ second) ?_
  simpa [← String.toList_inj] using same

/-- Events can have any name that is generated. -/
theorem isName (generates : d.Generates space) (there : v ∈ d.variants) :
    Event.isName (space ++ "." ++ snakeCase v.ident) = true := by
  obtain ⟨parts, spells⟩ := (Event.isName_iff_spells space).mp generates.valid
  exact (Event.isName_iff_spells _).mpr
    ⟨_, spells.extend (segment_snakeCase (generates.camel v there))⟩

/-- There is nothing wrong with the name of a variant. -/
theorem right {before after : List VariantDeclaration} (generates : d.Generates space)
    (split : d.variants = before ++ v :: after) :
    v.defect? d.space? before .valid = none ∧ v.defect? d.space? before .unused = none := by
  have there : v ∈ d.variants := by simp [split]
  have named := generates.nameIn there
  have unused : space ++ "." ++ snakeCase v.ident ∉ before.filterMap (·.nameIn d.space?) := by
    have nodup := generates.nodup
    rw [split, List.filterMap_append, List.filterMap_cons_some named] at nodup
    intro used
    exact (List.disjoint_of_nodup_append nodup) used List.mem_cons_self
  constructor
  · rw [VariantDeclaration.defect?, named, Option.bind_some, if_pos (generates.isName there)]
  · rw [VariantDeclaration.defect?, named, Option.bind_some, if_neg unused]

/-- No declaration is refused for a name that it generates. -/
theorem name?_of_error {defect : Defect} (generates : d.Generates space)
    (refused : d.expand = .error defect) : defect.name? = none := by
  rw [d.expand_eq, checked_eq_error_iff] at refused
  obtain ⟨r, asked, found⟩ := List.exists_of_findSome?_eq_some refused
  by_contra about
  obtain ⟨name, about⟩ := Option.ne_none_iff_exists'.mp about
  obtain ⟨earlier, v, aspect⟩ := Declaration.aspect_of_name? found about
  have variant : r ∈ variantRequirements [] d.variants := by
    rcases aspect with rfl | rfl <;> simpa [Declaration.requirements] using asked
  obtain ⟨before, w, after, _, split, same⟩ := of_mem_variantRequirements variant
  obtain ⟨valid, unused⟩ := generates.right split
  rcases aspect with rfl | rfl
  · cases same
    rw [Declaration.defect?, List.nil_append, valid] at found
    cases found
  · cases same
    rw [Declaration.defect?, List.nil_append, unused] at found
    cases found

/-- What is left to be asked of such a declaration has nothing to do with names. -/
theorem wellFormed (generates : d.Generates space) (enumeration : d.isEnumeration = true)
    (attributes : ∀ a ∈ d.attributes, a.Sets "namespace") (inhabited : d.variants ≠ [])
    (contents : ∀ v ∈ d.variants, v.contents = .unit ∨ v.contents = .tuple 1)
    (own : ∀ v ∈ d.variants, ∀ a ∈ v.attributes, a.Sets "name") : d.WellFormed := by
  refine ⟨enumeration, attributes, inhabited, fun v there => ?_, generates.nodup⟩
  refine ⟨contents v there, own v there, .inr (by simp [generates.given]), fun name named => ?_⟩
  rw [generates.nameIn there] at named
  cases named
  exact (Event.isName_iff_spells _).mp (generates.isName there)

end Declaration.Generates

/-- **Generated names never collide.** The spelling of an identifier in camel case is made of words
with an underscore between any two, and the words make the identifier again, so that different
identifiers have different spellings. If a declaration has a namespace that events can have for a
name, and its variants have different identifiers in camel case and no names of their own, then it
is never refused because a name is used twice or is none. Should it be an enumeration with variants
of the right contents, whose attributes are right, then it is expanded, and each variant is called
by the namespace and the spelling of its identifier. -/
theorem generated_names_never_collide :
    (∀ ident, Camel ident →
        camelCase (snakeCase ident) = ident ∧
        ∀ w ∈ (snakeCase ident).toList.splitOn '_', Word w) ∧
      (∀ ident other, Camel ident → Camel other → snakeCase ident = snakeCase other →
        ident = other) ∧
      ∀ (d : Declaration) (space : String), d.Generates space →
        (∀ name, d.expand ≠ .error (.duplicateName name) ∧
          d.expand ≠ .error (.invalidName name)) ∧
        (d.isEnumeration = true → (∀ a ∈ d.attributes, a.Sets "namespace") → d.variants ≠ [] →
          (∀ v ∈ d.variants, v.contents = .unit ∨ v.contents = .tuple 1) →
          (∀ v ∈ d.variants, ∀ a ∈ v.attributes, a.Sets "name") →
          ∃ bindings, d.expand = .ok bindings ∧
            bindings.map (·.name) = d.variants.map fun v => space ++ "." ++ snakeCase v.ident) := by
  refine ⟨fun ident camel => ⟨camelCase_snakeCase camel, words_snakeCase camel⟩,
    fun ident other => eq_of_snakeCase_eq, fun d space generates => ⟨fun name => ?_, ?_⟩⟩
  · constructor
    · intro refused
      cases generates.name?_of_error refused
    · intro refused
      cases generates.name?_of_error refused
  · intro enumeration attributes inhabited contents own
    obtain ⟨bindings, expands⟩ := d.expands_iff.mpr
      (generates.wellFormed enumeration attributes inhabited contents own)
    refine ⟨bindings, expands, (List.map_inj_right fun _ _ => Option.some.inj).mp ?_⟩
    rw [Declaration.names_in_order expands, List.map_map]
    exact List.map_congr_left fun v there => generates.nameIn there

/-- Two identifiers that differ in capitals only, with a digit and a run of capitals. -/
theorem generated_names_never_collide_acronym :
    let d : Declaration := ⟨true, "NetEvent",
      [⟨"event", .list [⟨"namespace", some (.text "net")⟩]⟩],
      [⟨"HTTPServer2", .unit, []⟩, ⟨"HttpServer2", .tuple 1, []⟩]⟩
    Camel "HTTPServer2" ∧ camelCase (snakeCase "HTTPServer2") = "HTTPServer2" ∧
      d.Generates "net" ∧
      ∃ bindings, d.expand = .ok bindings ∧
        bindings.map (·.name) = ["net.h_t_t_p_server2", "net.http_server2"] := by
  intro d
  have first : Camel "HTTPServer2" := ⟨⟨'H', rfl, rfl⟩, List.all_eq_true.mp rfl⟩
  have second : Camel "HttpServer2" := ⟨⟨'H', rfl, rfl⟩, List.all_eq_true.mp rfl⟩
  have generates : d.Generates "net" := by
    refine ⟨rfl, rfl, by decide +kernel, ?_, by decide +kernel⟩
    simpa [d] using ⟨first, second⟩
  obtain ⟨spellings, -, expansions⟩ := generated_names_never_collide
  have attributes : ∀ a ∈ d.attributes, a.Sets "namespace" := by
    simp [d, Attribute.Sets]
  have own : ∀ v ∈ d.variants, ∀ a ∈ v.attributes, a.Sets "name" := by
    simp [d]
  obtain ⟨bindings, expands, names⟩ :=
    (expansions d "net" generates).2 rfl attributes (by simp [d]) (by simp [d]) own
  exact ⟨first, (spellings _ first).1, generates, bindings, expands, names⟩

end Kind

end DomainEvents
