import DomainEvents.Time.Span
import DomainEvents.Uuid

/-!
# Contexts

A context goes along with an event to its handlers. It carries an identifier that ties together what
belongs together, perhaps a deadline, and the wish of its owner to stop. Contexts that were made
from each other are of one family: they are cancelled together, while each has its own identifier
and deadline. The wishes of all families are kept in `Cancellations`, so that a context itself never
changes.
-/

namespace DomainEvents

/-- A point on a clock that never goes back, in nanoseconds. -/
structure Moment where
  nanos : Nat
deriving DecidableEq, Repr, Inhabited

/-- The moment a span later; none if it is too late to be told. -/
def Moment.after? (now : Moment) (span : Time.Span) : Option Moment :=
  let nanos := now.nanos + span.seconds * Time.secondNanos + span.nanos
  if nanos < Nat.pow 2 63 * Time.secondNanos then some ⟨nanos⟩ else none

/-- A context. -/
structure Context where
  /-- what ties together the work that belongs together -/
  correlationId : Uuid
  /-- when it is too late to go on -/
  deadline : Option Moment
  /-- the family of contexts that are cancelled together -/
  family : Nat
deriving DecidableEq, Repr, Inhabited

/-- The families of contexts, and which of them are cancelled. -/
structure Cancellations where
  /-- how many families there are -/
  families : Nat := 0
  /-- those that were cancelled -/
  cancelled : List Nat := []
deriving DecidableEq, Repr, Inhabited

namespace Cancellations

/-- A context of a new family. -/
def newContext (c : Cancellations) (correlationId : Uuid) : Context × Cancellations :=
  (⟨correlationId, none, c.families⟩, { c with families := c.families + 1 })

/-- Cancels the family of a context. -/
def cancel (c : Cancellations) (ctx : Context) : Cancellations :=
  { c with cancelled := ctx.family :: c.cancelled }

/-- Whether a family was cancelled. -/
def isCancelled (c : Cancellations) (family : Nat) : Bool := c.cancelled.contains family

@[simp] theorem isCancelled_cancel (c : Cancellations) (ctx : Context) (family : Nat) :
    (c.cancel ctx).isCancelled family = (decide (family = ctx.family) || c.isCancelled family) := by
  simp [cancel, isCancelled]

end Cancellations

namespace Context

/-- The context with another identifier. -/
def withCorrelationId (ctx : Context) (id : Uuid) : Context := { ctx with correlationId := id }

/-- The context with another deadline. -/
def withDeadline (ctx : Context) (deadline : Moment) : Context :=
  { ctx with deadline := some deadline }

/-- The context with a deadline some time from now; without one if that is too late to be told. -/
def withTimeout (ctx : Context) (now : Moment) (span : Time.Span) : Context :=
  { ctx with deadline := now.after? span }

/-- Whether the work is to stop: its family was cancelled or its deadline has come. -/
def isCancelled (ctx : Context) (c : Cancellations) (now : Moment) : Bool :=
  c.isCancelled ctx.family || ctx.deadline.any fun deadline => deadline.nanos ≤ now.nanos

/-- The nanoseconds left before the deadline, if there is one. -/
def remaining (ctx : Context) (now : Moment) : Option Nat :=
  ctx.deadline.map fun deadline => deadline.nanos - now.nanos

end Context

end DomainEvents
