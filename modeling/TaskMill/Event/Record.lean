import TaskMill.Event.Timestamp
import TaskMill.Event.Wire
/-!
# TaskMill — recorded events

An event with an identifier of its own and the instant at which it happened, as
it is written to and read from JSON.
-/

namespace TaskMill

/-- An event on record. -/
structure EventRecord where
  id : EventId
  timestamp : Timestamp
  source : SourcedEvent
  deriving DecidableEq, Inhabited

namespace EventRecord

/-- A record as JSON. -/
def toJson (r : EventRecord) : Json :=
  .obj [("id", .str r.id.text), ("timestamp", .str r.timestamp.text),
    ("source", .obj [("target", .str r.source.target)]), ("category", r.source.event.toJson)]

/-- The record that a JSON value denotes. -/
def ofJson? (j : Json) : Option EventRecord := do
  let [id, timestamp, source, category] ← j.fields? ["id", "timestamp", "source", "category"]
    | none
  let id ← EventId.parse? (← id.bind Json.text?)
  let timestamp ← Timestamp.parse? (← timestamp.bind Json.text?)
  let [target] ← (← source).fields? ["target"] | none
  let target ← target.bind Json.text?
  let event ← Event.ofJson? (← category)
  return ⟨id, timestamp, target, event⟩

end EventRecord

end TaskMill
