/-!
# Spies

A spy keeps a record of calls, for assertions about how often something was called.
-/

namespace DomainEvents.Simulation

/-- A call on record. -/
structure Call where
  method : String
  arguments : List String
deriving DecidableEq, Repr

/-- A record of calls. -/
structure Spy where
  calls : List Call := []
deriving DecidableEq, Repr, Inhabited

namespace Spy

/-- Puts a call on record. -/
def record (s : Spy) (method : String) (arguments : List String) : Spy :=
  ⟨s.calls ++ [⟨method, arguments⟩]⟩

/-- How often a method was called. -/
def count (s : Spy) (method : String) : Nat :=
  s.calls.countP (·.method == method)

/-- Whether a method was called. -/
def wasCalled (s : Spy) (method : String) : Bool := 0 < s.count method

/-- Forgets all calls. -/
def clear (_ : Spy) : Spy := {}

/-- Asserts how often a method was called. -/
def assertTimes (s : Spy) (method : String) (expected : Nat) : Except String Unit :=
  let actual := s.count method
  if actual = expected then .ok ()
  else
    .error ("expected " ++ method ++ " to be called " ++ toString expected
      ++ " times, was called " ++ toString actual ++ " times")

end Spy

end DomainEvents.Simulation
