/-!
# The library's version
-/

namespace DomainEvents

/-- The version of the library: major, minor, patch. -/
def version : String := "0.1.0"

end DomainEvents
