import DomainEvents.Codec.Record
import DomainEvents.Kind.Basic

/-!
# Orders

The events of an order in a shop: it is placed, renamed, gets items, is shipped or cancelled.
-/

namespace DomainEvents.Catalog

/-- An order was placed. -/
structure OrderPlaced where
  customer : String
  totalCents : Nat
deriving DecidableEq, Repr

/-- An order was cancelled. -/
structure OrderCancelled where
  reason : String
deriving DecidableEq, Repr

/-- An order got another title. -/
structure OrderRenamed where
  oldTitle : String
  newTitle : String
deriving DecidableEq, Repr

/-- An item was added to an order. -/
structure LineItem where
  sku : String
  quantity : Nat
  note : Option String
  tags : List String
deriving DecidableEq, Repr

/-- Placed orders as records. -/
def orderPlaced : Codec OrderPlaced :=
  Codec.record "OrderPlaced"
    (.field "customer" Codec.string .refused <| .field "total_cents" Codec.u64 .refused .none)
    (fun (customer, totalCents, ()) => { customer, totalCents })
    (fun o => (o.customer, o.totalCents, ()))

/-- Cancelled orders as records. -/
def orderCancelled : Codec OrderCancelled :=
  Codec.record "OrderCancelled" (.field "reason" Codec.string .refused .none)
    (fun (reason, ()) => { reason }) (fun o => (o.reason, ()))

/-- Renamed orders as records. -/
def orderRenamed : Codec OrderRenamed :=
  Codec.record "OrderRenamed"
    (.field "from" Codec.string .refused <| .field "to" Codec.string .refused .none)
    (fun (old, new, ()) => ⟨old, new⟩) (fun o => (o.oldTitle, o.newTitle, ()))

/-- Items as records. The tags may be left out, and in an object the note too. -/
def lineItem : Codec LineItem :=
  Codec.record "LineItem"
    (.field "sku" Codec.string .refused <| .field "quantity" Codec.u32 .refused <|
      .field "note" (Codec.option Codec.string) (.optional none) <|
      .field "tags" (Codec.list Codec.string) (.default []) .none)
    (fun (sku, quantity, note, tags, ()) => { sku, quantity, note, tags })
    (fun o => (o.sku, o.quantity, o.note, o.tags, ()))

/-- An attribute that sets a key. -/
def setting (key value : String) : Kind.Attribute :=
  ⟨"event", .list [⟨key, some (.text value)⟩]⟩

/-- The declaration of the events of orders. -/
def orderDeclaration : Kind.Declaration where
  isEnumeration := true
  ident := "OrderEvent"
  attributes := [setting "namespace" "order"]
  variants :=
    [⟨"Placed", .tuple 1, []⟩, ⟨"Cancelled", .tuple 1, []⟩, ⟨"Shipped", .unit, []⟩,
     ⟨"Renamed", .tuple 1, [setting "name" "order.title_changed"]⟩,
     ⟨"LineItemAdded", .tuple 1, []⟩]

/-- The payloads of the events of orders. -/
def orderPayload : String → Option PayloadType
  | "Placed" => some { Carrier := _, codec := orderPlaced }
  | "Cancelled" => some { Carrier := _, codec := orderCancelled }
  | "Renamed" => some { Carrier := _, codec := orderRenamed }
  | "LineItemAdded" => some { Carrier := _, codec := lineItem }
  | _ => none

/-- The events of orders. -/
def order : Kind := Kind.ofDeclaration orderDeclaration orderPayload

end DomainEvents.Catalog
