/-!
# Subscriptions

The subscriptions of a bus in the order in which they were made. A subscription has a number of its
own, and one handler may have several. It is removed by its number, or as the first one of its
handler.
-/

namespace DomainEvents

/-- The number of a subscription. -/
structure SubscriptionId where
  number : Nat
deriving DecidableEq, Repr, Inhabited

/-- The text of a subscription number. -/
def SubscriptionId.text (id : SubscriptionId) : String :=
  "HandlerId(" ++ toString id.number ++ ")"

/-- Gives out the numbers of subscriptions, from one up. -/
structure SubscriptionIds where
  /-- how many have been given out -/
  given : Nat := 0
deriving DecidableEq, Repr, Inhabited

/-- The next number, and the ones after it. Numbers are words of 64 bits, so that they begin again
when all have been given out. -/
def SubscriptionIds.next (ids : SubscriptionIds) : SubscriptionId × SubscriptionIds :=
  (⟨(ids.given + 1) % Nat.pow 2 64⟩, ⟨ids.given + 1⟩)

/-- A subscription of a handler. -/
structure Subscription (H : Type) where
  id : SubscriptionId
  handler : H
deriving DecidableEq, Repr

/-- The subscriptions of a bus, in the order in which they were made. -/
structure Registry (H : Type) where
  entries : List (Subscription H) := []
deriving DecidableEq, Repr, Inhabited

namespace Registry

variable {H : Type}

/-- How many subscriptions there are. -/
def size (r : Registry H) : Nat := r.entries.length

/-- The registry after a subscription under a new number. -/
def subscribe (r : Registry H) (id : SubscriptionId) (handler : H) : Registry H :=
  ⟨r.entries ++ [⟨id, handler⟩]⟩

/-- Whether a handler has a subscription. -/
def hasHandler [DecidableEq H] (r : Registry H) (handler : H) : Bool :=
  r.entries.any (·.handler = handler)

/-- The registry without the first subscription of a handler. -/
def unsubscribe [DecidableEq H] (r : Registry H) (handler : H) : Registry H :=
  ⟨r.entries.eraseP (·.handler = handler)⟩

/-- Whether a subscription is there. -/
def hasId (r : Registry H) (id : SubscriptionId) : Bool :=
  r.entries.any (·.id = id)

/-- The registry without a subscription. -/
def off (r : Registry H) (id : SubscriptionId) : Registry H :=
  ⟨r.entries.eraseP (·.id = id)⟩

/-- The registry without any subscription. -/
def clear (_ : Registry H) : Registry H := ⟨[]⟩

@[simp] theorem entries_subscribe (r : Registry H) (id : SubscriptionId) (handler : H) :
    (r.subscribe id handler).entries = r.entries ++ [⟨id, handler⟩] := rfl

@[simp] theorem size_subscribe (r : Registry H) (id : SubscriptionId) (handler : H) :
    (r.subscribe id handler).size = r.size + 1 := by
  simp [size]

end Registry

end DomainEvents
