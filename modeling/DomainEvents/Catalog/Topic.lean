import DomainEvents.Catalog.Mixed

/-!
# Topics

The kinds of the catalog by their names.
-/

namespace DomainEvents.Catalog

/-- What the events of a kind are about. -/
inductive Topic where
  | order
  | mixed
deriving DecidableEq, Repr

/-- The kind of a topic. -/
def Topic.kind : Topic → Kind
  | .order => Catalog.order
  | .mixed => Catalog.mixed

/-- The topic of a name. -/
def Topic.ofName? : String → Option Topic
  | "order" => some .order
  | "mixed" => some .mixed
  | _ => none

end DomainEvents.Catalog
