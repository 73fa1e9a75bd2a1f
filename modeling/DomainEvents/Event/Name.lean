import DomainEvents.Error
import DomainEvents.Text.Blank
import DomainEvents.Text.Dotted

/-!
# Names of events

The name of an event is a dotted text: one segment or more, none of them empty, without blanks.
-/

namespace DomainEvents.Event

/-- Whether a text is a name: no blank in it, and no empty segment. -/
def isName (name : String) : Bool :=
  !name.toList.any Text.isBlank && !(Text.segments name.toList).any (·.isEmpty)

/-- Accepts a name, or tells what is wrong with it. -/
def checkName (name : String) : Except ValidationError Unit :=
  if name.isEmpty then .error (.missingField "name")
  else if isName name then .ok ()
  else .error (.invalidValue "name" name)

/-- The empty text has one segment, which is empty. -/
theorem isName_empty : isName "" = false := rfl

/-- A text is accepted as a name if and only if it is one. -/
theorem checkName_eq_ok_iff (name : String) : checkName name = .ok () ↔ isName name = true := by
  rw [checkName]
  split
  case isTrue empty =>
    obtain rfl : name = "" := String.isEmpty_iff.mp empty
    simp [isName_empty]
  case isFalse =>
    cases isName name <;> simp

end DomainEvents.Event
