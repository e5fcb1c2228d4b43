/-
The definition of a named queue.
-/
import JobAdmission.Json.Decode

namespace JobAdmission

/-- What a queue is called, where it stands among the queues, and how it orders its jobs. -/
structure QueueDef where
  name : String
  /-- Queues of higher priority are visited first. -/
  priority : Int32
  /-- The name of the ordering of its jobs; empty for the default one. -/
  policy : String
deriving DecidableEq, Repr, Inhabited

namespace QueueDef

open Json

/-- The ordering by priority, used where a definition names none. -/
def priorityPolicy : String := "Priority"

/-- A queue that orders its jobs by priority. -/
def new (name : String) (priority : Int32) : QueueDef :=
  { name, priority, policy := priorityPolicy }

/-- A definition as an object. -/
def toJson (d : QueueDef) : Json :=
  .obj [("name", .str d.name), ("priority", .int d.priority.toInt),
    ("queue_policy", .str d.policy)]

/-- Read a definition. The name is required. -/
def ofJson? (j : Json) : Option QueueDef := do
  let r ← j.record? ["name", "priority", "queue_policy"]
  return {
    name := ← need? r "name" str?
    priority := ← orElse? r "priority" 0 int32?
    policy := ← orElse? r "queue_policy" priorityPolicy str? }

end QueueDef

end JobAdmission
