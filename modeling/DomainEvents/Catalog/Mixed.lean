import DomainEvents.Catalog.Order

/-!
# Mixed events

Events with payloads of every type that there is a codec for.
-/

namespace DomainEvents.Catalog

/-- The declaration of the mixed events. -/
def mixedDeclaration : Kind.Declaration where
  isEnumeration := true
  ident := "MixedEvent"
  attributes := [setting "namespace" "mixed"]
  variants :=
    (["Count", "Flag", "Text", "Ratio", "Tags", "Maybe", "Pair", "Scores", "Letter", "Nothing",
      "Raw", "Grid"].map fun ident => ⟨ident, .tuple 1, []⟩)
    ++ [⟨"HTTPDone", .unit, [setting "name" "solo"]⟩]

/-- Ratios that are given by hand: numbers, and words for what is no number. -/
def ratioLiteral : Json → Codec.Decoded Codec.Real
  | .str "nan" => .ok .nan
  | .str "inf" => .ok (.infinite false)
  | .str "-inf" => .ok (.infinite true)
  | v => Codec.f64.decode v

/-- Grids that are given by hand: lists of points with their values. -/
def gridLiteral : Json → Codec.Decoded (List ((Int × Int) × Int)) :=
  (Codec.list (Codec.pair (Codec.pair Codec.i32 Codec.i32) Codec.i32)).decode

/-- The payloads of the mixed events. -/
def mixedPayload : String → Option PayloadType
  | "Count" => some { Carrier := _, codec := Codec.i32 }
  | "Flag" => some { Carrier := _, codec := Codec.boolean }
  | "Text" => some { Carrier := _, codec := Codec.string }
  | "Ratio" => some { Carrier := _, codec := Codec.f64, literal := ratioLiteral }
  | "Tags" => some { Carrier := _, codec := Codec.list Codec.string }
  | "Maybe" => some { Carrier := _, codec := Codec.option Codec.u8 }
  | "Pair" => some { Carrier := _, codec := Codec.pair Codec.i64 Codec.string }
  | "Scores" => some { Carrier := _, codec := Codec.stringMap Codec.i64 }
  | "Letter" => some { Carrier := _, codec := Codec.character }
  | "Nothing" => some { Carrier := _, codec := Codec.unit }
  | "Raw" => some { Carrier := _, codec := Codec.json }
  | "Grid" => some { Carrier := _, codec := Codec.pairMap, literal := gridLiteral }
  | _ => none

/-- The mixed events. -/
def mixed : Kind := Kind.ofDeclaration mixedDeclaration mixedPayload

end DomainEvents.Catalog
