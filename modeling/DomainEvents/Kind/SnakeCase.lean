import DomainEvents.Text.Capital

/-!
# Snake case

The spelling of an identifier in small letters: every capital letter becomes its small form, and all
but the first character of the identifier get an underscore before it.
-/

namespace DomainEvents.Kind

/-- The spelling of the characters after the first. -/
def snakeTail : List Char → List Char
  | [] => []
  | c :: rest =>
    if Text.isCapital c then '_' :: Text.smallForm c ++ snakeTail rest else c :: snakeTail rest

/-- The spelling of the characters of an identifier. -/
def snakeChars : List Char → List Char
  | [] => []
  | c :: rest => Text.smallForm c ++ snakeTail rest

/-- The spelling of an identifier. -/
def snakeCase (ident : String) : String :=
  String.ofList (snakeChars ident.toList)

end DomainEvents.Kind
