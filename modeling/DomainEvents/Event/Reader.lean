import DomainEvents.Event.Record
import DomainEvents.Json.Reader

/-!
# Reading events from text

A stored text is read field by field from left to right, and the first fault decides: the text may
end too early, may be no JSON, or may be JSON of another shape. A field that the record knows must
not come twice; the values of other fields are skipped.
-/

namespace DomainEvents.Event

open Json (Fault Reading)

/-- The fields of a record that have been read so far. -/
structure Draft where
  id : Option Uuid := none
  name : Option String := none
  aggregateId : Option String := none
  occurredAt : Option Time.Instant := none
  payload : Option Json := none

namespace Draft

/-- The fault of a value of another type than was asked for. A word, number or string is read to its
end, so that a fault inside of it comes first. -/
def refusal (cs : List Char) : Fault :=
  match cs with
  | [] => .ended
  | c :: _ =>
    if c = '[' ∨ c = '\x7b' then .mismatched
    else
      match Json.readValue (Json.stepsFor cs) Json.depthLimit cs with
      | .ok _ => .mismatched
      | .error fault => fault

/-- Reads a string that stands for a value. -/
def readText {α : Type} (parse? : String → Option α) (cs : List Char) :
    Reading (α × List Char) :=
  match Json.dropSpace cs with
  | '"' :: rest => do
    let (s, rest) ← Json.readString rest
    match parse? s with
    | some a => return (a, rest)
    | none => .error .mismatched
  | rest => .error (refusal rest)

/-- Reads the payload, inside of the record. -/
def readPayload (cs : List Char) : Reading (Json × List Char) :=
  Json.readValue (Json.stepsFor cs) (Json.depthLimit - 1) cs

/-- Refuses a field that has a value already. -/
def unset {α : Type} (old : Option α) : Reading Unit :=
  if old.isSome then .error .mismatched else .ok ()

/-- Reads the value of a field, from the end of its name. -/
def readField (draft : Draft) (field : String) (cs : List Char) : Reading (Draft × List Char) := do
  if field = "id" then
    unset draft.id
    let ((), rest) ← Json.readColon cs
    let (id, rest) ← readText Uuid.parse? rest
    return ({ draft with id := some id }, rest)
  else if field = "name" then
    unset draft.name
    let ((), rest) ← Json.readColon cs
    let (name, rest) ← readText some rest
    return ({ draft with name := some name }, rest)
  else if field = "aggregate_id" then
    unset draft.aggregateId
    let ((), rest) ← Json.readColon cs
    let (aggregateId, rest) ← readText some rest
    return ({ draft with aggregateId := some aggregateId }, rest)
  else if field = "occurred_at" then
    unset draft.occurredAt
    let ((), rest) ← Json.readColon cs
    let (occurredAt, rest) ← readText Time.Instant.parse? rest
    return ({ draft with occurredAt := some occurredAt }, rest)
  else if field = "payload" then
    unset draft.payload
    let ((), rest) ← Json.readColon cs
    let (payload, rest) ← readPayload rest
    return ({ draft with payload := some payload }, rest)
  else
    let ((), rest) ← Json.readColon cs
    let ((), rest) ← Json.skipValue (Json.stepsFor rest) rest
    return (draft, rest)

/-- Reads fields up to the closing brace. -/
def readFields : Nat → Bool → Draft → List Char → Reading (Draft × List Char)
  | 0, _, _, _ => .error .malformed
  | steps + 1, first, draft, cs => do
    match ← Json.nextField first cs with
    | (false, rest) => return (draft, rest)
    | (true, rest) =>
      let (field, rest) ← Json.readString rest
      let (draft, rest) ← draft.readField field rest
      readFields steps false draft rest

/-- The event of a record, if no field is missing. -/
def toEvent? (draft : Draft) : Option Event := do
  return {
    id := ← draft.id
    name := ← draft.name
    aggregateId := ← draft.aggregateId
    occurredAt := ← draft.occurredAt
    payload := ← draft.payload
  }

end Draft

/-- Goes to the next item of an array that must have one more. -/
def nextOf (first : Bool) (cs : List Char) : Reading (List Char) := do
  match ← Json.nextItem first cs with
  | (true, rest) => return rest
  | (false, _) => .error .mismatched

/-- Reads the array form of an event, after its opening bracket. -/
def readItems (cs : List Char) : Reading (Event × List Char) := do
  let (id, rest) ← Draft.readText Uuid.parse? (← nextOf true cs)
  let (name, rest) ← Draft.readText some (← nextOf false rest)
  let (aggregateId, rest) ← Draft.readText some (← nextOf false rest)
  let (occurredAt, rest) ← Draft.readText Time.Instant.parse? (← nextOf false rest)
  let (payload, rest) ← Draft.readPayload (← nextOf false rest)
  match Json.dropSpace rest with
  | ']' :: rest => return (⟨id, name, aggregateId, occurredAt, payload⟩, rest)
  | [] => .error .ended
  | _ :: _ => .error .malformed

/-- Reads an event in either form. -/
def read (cs : List Char) : Reading (Event × List Char) :=
  match Json.dropSpace cs with
  | '[' :: rest => readItems rest
  | '\x7b' :: rest => do
    let (draft, rest) ← Draft.readFields (Json.stepsFor rest) true {} rest
    match draft.toEvent? with
    | some event => return (event, rest)
    | none => .error .mismatched
  | rest => .error (Draft.refusal rest)

/-- The event of a stored text that holds one event and space around it. -/
def parse (s : String) : Except Fault Event := do
  let (event, rest) ← read s.toList
  if (Json.dropSpace rest).isEmpty then return event else .error .malformed

end DomainEvents.Event
